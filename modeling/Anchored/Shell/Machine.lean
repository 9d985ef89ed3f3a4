import Anchored.Disk.Store
import Anchored.Shell.Channel
import Anchored.Shell.Script

/-!
# The machine that scripts run on

A machine holds the files, what is open of them, the time that has passed, and the environment of
the shell that is running. A shell within a shell works on a copy of the environment; all else is
shared. The machine has a limit on its time and on its steps, and so on what it can write before
someone reads it: a script that gets past one of them is late.
-/

namespace Anchored.Shell

/-- Something that can be read or written. -/
inductive Opened where
  | channel (c : Channel)
  | file (place : Place) (position : Nat) (readable writable appends : Bool)
  | directory
  /-- Holds nothing and takes everything. -/
  | void
  /-- Takes nothing. -/
  | full

/-- A parameter with a name. -/
structure Setting where
  value : Option String
  /-- The programs that are started are told. -/
  exported : Bool
  fixed : Bool
  deriving DecidableEq, Repr

/-- How a script goes on where it does not go on with the next command. -/
inductive Skip where
  /-- Out of so many loops. -/
  | leave (loops : Nat)
  /-- To the next round of the last of so many loops. -/
  | again (loops : Nat)
  /-- Out of a function or a file. -/
  | back
  deriving DecidableEq, Repr

/-- The environment of a shell. -/
structure Environment where
  /-- The name of the script, and its arguments. -/
  name : String
  args : List String
  settings : List (String × Setting)
  functions : List (String × Command)
  aliases : List (String × String)
  /-- The letters of the options that are set. -/
  options : List Char
  /-- What is done about signals; zero stands for the end of the shell. -/
  traps : List (Nat × String)
  /-- The numbers of what is open, by handle. -/
  handles : List (Nat × Nat)
  /-- The working directory. -/
  here : Place
  /-- The status of the last command. -/
  status : Nat
  /-- The status of the last command substitution of a command. -/
  captured : Nat
  /-- The line of the command. -/
  line : Nat
  /-- The built-in command that is running. -/
  builtin : Option String
  skip : Option Skip
  loops : Nat
  /-- The functions that are running. -/
  depth : Nat
  /-- The parameters of the functions that are running, as they were before. -/
  saved : List (List (String × Option Setting))
  /-- The number of the next argument that can be an option, and the letters of the one before that
  options were taken from. -/
  nextOption : Nat
  optionLetters : Option Nat
  /-- Programs that were started. -/
  tracked : List String
  /-- The number of the script, and the one of the shell, which differs in a shell within it. -/
  process : Nat
  self : Nat
  /-- What the script does about signals, in a shell within it. -/
  outerTraps : Option (List (Nat × String))
  /-- The status that the shell ends with, while something is done before that. -/
  leaving : Option Nat
  umask : Nat
  /-- The number of the last command that nobody waits for. -/
  lastJob : Option Nat

/-- How a process ended. -/
inductive Ended where
  | status (n : Nat)
  | signal (n : Nat)
  deriving DecidableEq, Repr

/-- A command that nobody waits for: it ends at some time in some way. -/
structure Job where
  process : Nat
  ends : Nat
  ended : Ended
  /-- The shell knows that it ended. -/
  known : Bool
  deriving DecidableEq, Repr

/-- All that a script can look at and change. -/
structure Machine where
  store : Store
  opened : Array Opened
  /-- Thousandths of a second. -/
  clock : Nat
  timeLimit : Nat
  steps : Nat
  processes : Nat
  jobs : List Job
  /-- Signals that something is to be done about, with the scripts that they were sent to. -/
  signals : List (Nat × Nat)
  env : Environment

/-- Why a script does not go on. -/
inductive Stop where
  /-- A command failed in a way that ends the script. -/
  | failed
  | exit
  | killed (process signal : Nat)
  | late
  deriving DecidableEq, Repr

/-- What runs on a machine. What it did up to a stop is done. -/
abbrev ShellM := ExceptT Stop (StateM Machine)

/-! ## Steps and time -/

/-- The steps that a script can take. -/
def stepLimit : Nat :=
  400000

/-- The bytes that a script can write before someone reads them. -/
def channelSize : Nat :=
  65536

/-- Takes steps. -/
def spend (steps : Nat) : ShellM Unit := do
  let left := (← get).steps
  modify fun m => { m with steps := left - steps }
  if left < steps then throw .late

/-- Takes the steps for so many bytes. -/
def spendOn (bytes : Nat) : ShellM Unit :=
  spend (bytes / 16)

/-- Takes the steps for a process. -/
def spendOnProcess : ShellM Unit :=
  spend 20

/-- Lets time pass. -/
def wait (time : Nat) : ShellM Unit := do
  let m ← get
  if m.timeLimit < m.clock + time then throw .late
  modify fun m => { m with clock := m.clock + time }

/-- The environment. -/
def env : ShellM Environment :=
  return (← get).env

/-- Changes the environment. -/
def modifyEnv (f : Environment → Environment) : ShellM Unit :=
  modify fun m => { m with env := f m.env }

/-- Sets the status. -/
def setStatus (status : Nat) : ShellM Unit :=
  modifyEnv fun e => { e with status }

/-- An option is set. -/
def hasOption (letter : Char) : ShellM Bool :=
  return (← env).options.contains letter

/-! ## Open files -/

/-- The output of the machine, among what is open. -/
def outputIndex : Nat :=
  1

/-- The stream for errors of the machine. -/
def errorsIndex : Nat :=
  2

/-- What a handle stands for. -/
def openedAt (handle : Nat) : ShellM (Option (Nat × Opened)) := do
  let m ← get
  match List.lookup handle m.env.handles with
  | none => return none
  | some n => return m.opened[n]?.map (n, ·)

/-- The bytes of the file at a place. -/
def Machine.contents (m : Machine) (place : Place) : ByteArray :=
  match m.store.node place with
  | some (.file bytes) => bytes
  | _ => .empty

/-- The bytes with others in place of those from a position on. -/
def overlay (old new : ByteArray) (position : Nat) : ByteArray :=
  let gap : ByteArray := ⟨Array.replicate (position - old.size) 0⟩
  (old ++ gap).extract 0 position ++ new ++ old.extract (position + new.size) old.size

/-- Changes what is open. -/
def setOpened (n : Nat) (o : Opened) : ShellM Unit :=
  modify fun m => { m with opened := m.opened.setIfInBounds n o }

/-- Puts bytes into the file at a place. -/
def putFile (place : Place) (bytes : ByteArray) : ShellM Unit := do
  spend ((← get).store.entries.length / 16)
  modify fun m => { m with store := m.store.put place (some (.file bytes)) }

/-- Writes bytes to what a handle stands for, if it takes them. -/
def writeBytes (handle : Nat) (bytes : ByteArray) : ShellM Bool := do
  if bytes.isEmpty then return true
  spendOn bytes.size
  match ← openedAt handle with
  | some (n, .channel _) =>
    modify fun m =>
      { m with opened := m.opened.modify n fun
        | .channel c => .channel (c.write m.clock bytes)
        | o => o }
    if n = outputIndex ∨ n = errorsIndex then
      match (← get).opened[n]? with
      | some (.channel written) => if channelSize < written.size then throw .late
      | _ => pure ()
    return true
  | some (n, .file place position readable true appends) =>
    let old := (← get).contents place
    spendOn (old.size / 16)
    let position := if appends then old.size else position
    putFile place (overlay old bytes position)
    setOpened n (.file place (position + bytes.size) readable true appends)
    return true
  | some (_, .void) => return true
  | _ => return false

/-- Writes a raw text. -/
def write (handle : Nat) (text : String) : ShellM Bool :=
  writeBytes handle (toBytes text)

/-- Reads up to `size` bytes from what a handle stands for. -/
def readBytes (handle size : Nat) : ShellM ByteArray := do
  spendOn size
  match ← openedAt handle with
  | some (n, .channel c) =>
    spendOn (c.size / 4096)
    let (bytes, time, rest) := c.take size
    setOpened n (.channel rest)
    wait (time - (← get).clock)
    return bytes
  | some (n, .file place position true writable appends) =>
    let bytes := (← get).contents place
    let next := bytes.extract position (position + size)
    setOpened n (.file place (position + next.size) true writable appends)
    return next
  | _ => return .empty

/-- Opens something, under a number that is given back. -/
def addOpened (o : Opened) : ShellM Nat :=
  modifyGet fun m => (m.opened.size, { m with opened := m.opened.push o })

/-- Lets a handle stand for something, or for nothing. -/
def setHandle (handle : Nat) (n : Option Nat) : ShellM Unit :=
  modifyEnv fun e =>
    let others := e.handles.filter (·.1 ≠ handle)
    { e with handles := match n with
      | some n => (handle, n) :: others
      | none => others }

/-! ## Complaints -/

/-- Complains about something. -/
def warn (text : String) : ShellM Unit := do
  let e ← env
  let command := match e.builtin with
    | some name => name ++ ": "
    | none => ""
  let _ ← write 2 (e.name ++ ": " ++ toString e.line ++ ": " ++ command ++ text ++ "\n")

/-- Complains about something that ends the command, and the script if the command is not one that
can fail. -/
def fail (text : String) : ShellM α := do
  warn text
  setStatus 2
  throw .failed

/-- Runs something. If it fails, that is all. -/
def attempt (body : ShellM Unit) : ShellM Bool :=
  tryCatch (body *> pure true) fun
    | .failed => pure false
    | stop => throw stop

/-! ## Parameters -/

/-- The letters of the options, in the order in which they are told, with their names. -/
def optionNames : List (Option Char × String) :=
  [(some 'e', "errexit"), (some 'f', "noglob"), (some 'I', "ignoreeof"),
    (some 'i', "interactive"), (some 'm', "monitor"), (some 'n', "noexec"), (some 's', "stdin"),
    (some 'x', "xtrace"), (some 'v', "verbose"), (some 'V', "vi"), (some 'E', "emacs"),
    (some 'C', "noclobber"), (some 'a', "allexport"), (some 'b', "notify"),
    (some 'u', "nounset"), (some 'p', "privileged"), (none, "nolog"), (none, "debug")]

namespace Environment

/-- The setting of a name. -/
def setting? (e : Environment) (name : String) : Option Setting :=
  List.lookup name e.settings

/-- The value of a name. -/
def value? (e : Environment) (name : String) : Option String :=
  (e.setting? name).bind (·.value)

/-- The environment with a setting. -/
def put (e : Environment) (name : String) (s : Setting) : Environment :=
  { e with settings := (name, s) :: e.settings.filter (·.1 ≠ name) }

/-- The environment without a setting. -/
def erase (e : Environment) (name : String) : Environment :=
  { e with settings := e.settings.filter (·.1 ≠ name) }

/-- What divides fields. -/
def separators (e : Environment) : String :=
  (e.value? "IFS").getD " \t\n"

end Environment

/-- Sets a name to a value. -/
def assign (name value : String) : ShellM Unit := do
  if ! isName name then fail (name ++ ": bad variable name")
  let e ← env
  let old := (e.setting? name).getD ⟨none, false, false⟩
  if old.fixed then fail (name ++ ": is read only")
  let exported := old.exported || e.options.contains 'a'
  spendOn value.length
  modifyEnv fun e => e.put name { old with value := some value, exported }
  if name = "OPTIND" then
    modifyEnv fun e => { e with nextOption := max (value.toNat?.getD 1) 1, optionLetters := none }

/-! ## Places -/

/-- Things that are not in the store but have a path. -/
inductive Device where
  | void
  | full
  /-- What a handle of the script stands for. -/
  | handle (n : Nat)
  deriving DecidableEq, Repr

/-- The device at a path. -/
def device? (path : String) : Option Device :=
  match path with
  | "/dev/null" => some .void
  | "/dev/full" => some .full
  | "/dev/stdin" => some (.handle 0)
  | "/dev/stdout" => some (.handle 1)
  | "/dev/stderr" => some (.handle 2)
  | path =>
    match path.splitOn "/" with
    | ["", "dev", "fd", n] | ["", "proc", "self", "fd", n] => n.toNat?.map .handle
    | _ => none

/-- Directories outside of the store. -/
def outerDirectories : List String :=
  ["/", "/bin", "/dev", "/etc", "/home", "/proc", "/root", "/tmp", "/usr", "/usr/bin",
    "/usr/lib", "/var"]

/-- The place that a path starts from, and the names on it. -/
def Machine.walk (m : Machine) (path : String) : Place × List String :=
  let (start, names) := Store.steps (shown path)
  (if start = [] then m.env.here else start, names)

/-- The place that a path names. -/
def Machine.place (m : Machine) (path : String) : Except Fault Place :=
  match Store.spellingFault? (shown path) with
  | some fault => .error fault
  | none =>
    let (start, names) := m.walk path
    m.store.follow start names

/-- What is at a path. -/
def Machine.node? (m : Machine) (path : String) : Option Node :=
  match m.place path with
  | .ok place => m.store.node place
  | .error _ => if outerDirectories.contains path then some .directory else none

/-- The system's words for a fault. -/
def faultText : Fault → String
  | .notDirectory => "Not a directory"
  | .directory => "Is a directory"
  | .tooLarge => "File too large"
  | .nameTooLong => "File name too long"
  | _ => "No such file or directory"

end Anchored.Shell
