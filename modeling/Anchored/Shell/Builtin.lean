import Anchored.Shell.Condition
import Anchored.Shell.Expansion
import Anchored.Shell.Format
import Anchored.Shell.Reader
import Anchored.Shell.Signal

/-!
# Built-in commands

The commands of the shell that run no other commands. Each takes its arguments and gives a status.
-/

namespace Anchored.Shell

/-! ## Names -/

/-- The built-in commands that are not special. -/
def plainNames : List String :=
  ["alias", "bg", "cd", "chdir", "command", "echo", "false", "fg", "getopts", "hash", "jobs",
    "kill", "printf", "pwd", "read", "test", "[", "true", "type", "ulimit", "umask", "unalias",
    "wait"]

/-- The command is built in. -/
def isBuiltin (name : String) : Bool :=
  specialNames.contains name || plainNames.contains name

/-- The arguments of the command can be assignments. -/
def takesAssignments (name : String) : Bool :=
  ["export", "readonly", "local"].contains name

/-- Programs that can be started, with the directory that they are in. -/
def programs : List String :=
  ["sh", "cat", "sleep", "echo", "true", "false"]

/-- The directories with programs. -/
def programDirectories : List String :=
  ["/usr/bin", "/bin"]

/-- Where a name leads that is no function and not built in. -/
inductive Found where
  | program (name path : String)
  /-- A file that is no program. -/
  | forbidden
  | missing
  deriving DecidableEq, Repr

/-- The program at a path. -/
def Machine.programAt (m : Machine) (path : String) : Found :=
  let parts := path.splitOn "/"
  let name := parts.getLastD ""
  if programDirectories.contains ("/".intercalate parts.dropLast) ∧ programs.contains name then
    .program name path
  else if (m.node? path).isSome then .forbidden
  else .missing

/-- The program that a name leads to along a path. -/
def Machine.program (m : Machine) (path name : String) : Found :=
  if name = "" then .missing
  else if name.contains '/' then m.programAt name
  else
    let found := (path.splitOn ":").filterMap fun directory =>
      let candidate := if directory = "" then name else directory ++ "/" ++ name
      match m.programAt candidate with
      | .missing => none
      | .forbidden =>
        match m.node? candidate with
        | some (.file _) => some .forbidden
        | _ => none
      | found => some found
    match found.find? (· ≠ .forbidden), found with
    | some found, _ => found
    | none, [] => .missing
    | none, _ => .forbidden

/-- The path along which programs are looked for. -/
def Environment.path (e : Environment) : String :=
  (e.value? "PATH").getD ""

/-- The values in the order of the buckets that their names fall into. -/
def inBuckets (buckets : Nat) (name : α → String) (values : List α) : List α :=
  let bucket (a : α) : Nat :=
    let codes := (name a).toList.map Char.toNat
    codes.foldl (· + ·) (16 * codes.headD 0) % 32768 % buckets
  values.mergeSort fun a b => bucket a ≤ bucket b

/-- Keeps in mind that a program was looked for along the path. -/
def track (name : String) : ShellM Unit :=
  modifyEnv fun e =>
    if name.contains '/' ∨ e.tracked.contains name then e
    else { e with tracked := e.tracked ++ [name] }

/-! ## Options of built-in commands -/

/-- Takes options from arguments. A letter with a colon behind it takes a text. -/
def takeOptions (allowed : String) : List String → ShellM (List (Char × String) × List String)
  | [] => return ([], [])
  | argument :: rest => do
    match argument.toList with
    | ['-', '-'] => return ([], rest)
    | '-' :: c :: cs =>
      let (found, text) ← letters (c :: cs) rest.head?
      let (more, rest) ← match text, rest with
        | true, _ :: rest => takeOptions allowed rest
        | _, rest => takeOptions allowed rest
      return (found ++ more, rest)
    | _ => return ([], argument :: rest)
where
  /-- Takes the letters of one argument, and tells whether the next one belongs to them. -/
  letters (cs : List Char) (next : Option String) : ShellM (List (Char × String) × Bool) := do
    match cs with
    | [] => return ([], false)
    | c :: cs =>
      match allowed.toList.dropWhile (· != c) with
      | [] => fail ("Illegal option -" ++ c.toString)
      | _ :: ':' :: _ =>
        if ! cs.isEmpty then return ([(c, String.ofList cs)], false)
        match next with
        | some text => return ([(c, text)], true)
        | none => fail ("No arg for -" ++ c.toString ++ " option")
      | _ =>
        let (more, taken) ← letters cs next
        return ((c, "") :: more, taken)

/-! ## Output -/

/-- Writes a text for a built-in command and gives its status. -/
def report (text : String) (status : Nat) : ShellM Nat := do
  if ← write 1 text then return status
  warn ((← env).builtin.getD "" ++ ": I/O error")
  return status ||| 1

/-- Letters as the shell reads them back: apostrophes between double quotes, all else between
apostrophes. -/
def apostrophes : Nat → List Char → List Char
  | 0, _ => []
  | fuel + 1, t =>
    let plain := t.takeWhile (· != '\'')
    let rest := t.drop plain.length
    let quotes := rest.takeWhile (· == '\'')
    let after := rest.drop quotes.length
    '\'' :: plain ++ '\'' :: (if quotes.isEmpty then [] else
      '"' :: quotes ++ '"' :: (if after.isEmpty then [] else apostrophes fuel after))

/-- A text as the shell reads it back. -/
def apostrophed (text : String) : String :=
  String.ofList (apostrophes (text.length + 1) text.toList)

/-- Writes words with one blank between them, with their escapes carried out. -/
def echo (args : List String) : ShellM Nat := do
  let (quiet, args) := match args with
    | "-n" :: rest => (true, rest)
    | args => (false, args)
  let (text, stopped) := unescapeText (" ".intercalate args)
  report (String.ofList text ++ if quiet ∨ stopped then "" else "\n") 0

/-- Writes arguments as a format says. -/
def printf (args : List String) : ShellM Nat := do
  match (← takeOptions "" args).2 with
  | [] => fail "usage: printf format [arg ...]"
  | format :: args =>
    let (text, good) ← formatted format args
    report text (if good then 0 else 1)

/-- Decides a condition. -/
def test (name : String) (args : List String) : ShellM Nat := do
  let words ← (do
    if name = "[" then
      if ((args.getLast?.bind (·.toList.head?)) ≠ some ']') then fail "missing ]"
      return args.dropLast
    return args)
  return if ← Decide.words false words then 0 else 1

/-! ## Parameters -/

/-- The settings as commands that set them. -/
def listSettings (command : String) (which : Setting → Bool) : ShellM Nat := do
  let e ← env
  let chosen := e.settings.filter fun (_, s) => which s
  let lines := (chosen.mergeSort fun a b => a.1 ≤ b.1).map fun (name, s) =>
    let value := match s.value with
      | some v => "=" ++ apostrophed v
      | none => ""
    command ++ name ++ value ++ "\n"
  report (String.join lines) 0

/-- A name and the value behind it, if there is one. -/
def nameAndValue (argument : String) : String × Option String :=
  let name := String.ofList (argument.toList.takeWhile (· != '='))
  if name.length = argument.length then (name, none)
  else (name, some (argument.drop (name.length + 1)).toString)

/-- Marks settings, and sets those that have a value. -/
def mark (name : String) (change : Setting → Setting) (which : Setting → Bool)
    (args : List String) : ShellM Nat := do
  let (options, args) ← takeOptions "p" args
  if args.isEmpty ∨ ! options.isEmpty then return ← listSettings (name ++ " ") which
  for argument in args do
    let (name, value) := nameAndValue argument
    if ! isName name then fail (name ++ ": bad variable name")
    if let some value := value then assign name value
    modifyEnv fun e => e.put name (change ((e.setting? name).getD ⟨none, false, false⟩))
  return 0

/-- Sets a name in a function only. -/
def makeLocal (exported : Bool) (name : String) (value : Option String) : ShellM Unit := do
  let e ← env
  let before := e.setting? name
  match e.saved with
  | frame :: frames =>
    if ! frame.any (·.1 == name) then
      modifyEnv fun e => { e with saved := ((name, before) :: frame) :: frames }
  | [] => pure ()
  if let some value := value then assign name value
  if exported then
    modifyEnv fun e => e.put name { (e.setting? name).getD ⟨none, true, false⟩ with exported }

/-- Puts the settings of a frame back. -/
def restoreLocals : ShellM Unit :=
  modifyEnv fun e =>
    match e.saved with
    | [] => e
    | frame :: saved =>
      frame.foldl (fun e (name, before) =>
        match before with
        | some s => e.put name s
        | none => e.erase name) { e with saved }

/-- Declares names local to a function. -/
def localNames (args : List String) : ShellM Nat := do
  if (← env).depth = 0 then fail "not in a function"
  for argument in args do
    let (name, value) := nameAndValue argument
    if ! isName name then fail (name ++ ": bad variable name")
    makeLocal false name value
  return 0

/-- Removes names. -/
def unset (args : List String) : ShellM Nat := do
  let (options, args) ← takeOptions "vf" args
  let functions := (options.getLast?.map (·.1)) = some 'f'
  for name in args do
    if functions then
      modifyEnv fun e => { e with functions := e.functions.filter (·.1 ≠ name) }
    else
      if ! isName name then fail (name ++ ": bad variable name")
      if ((← env).setting? name).any (·.fixed) then fail (name ++ ": is read only")
      modifyEnv fun e => e.erase name
  return 0

/-- Sets the arguments of the shell. -/
def setArguments (args : List String) : ShellM Unit :=
  modifyEnv fun e => { e with args, nextOption := 1, optionLetters := none }

/-- Sets an option by its letter. Jobs cannot be controlled, for there is no terminal. -/
def setOption (on : Bool) (letter : Char) : ShellM Unit := do
  if ! optionNames.any (·.1 == some letter) then fail ("Illegal option -" ++ letter.toString)
  if on ∧ letter = 'm' then
    warn "can't access tty; job control turned off"
    return
  modifyEnv fun e =>
    let others := e.options.filter (· != letter)
    { e with options := if on then letter :: others else others }

/-- Sets an option by its name. -/
def setNamed (on : Bool) (name : String) : ShellM Unit := do
  match optionNames.find? (·.2 == name) with
  | some (some letter, _) => setOption on letter
  | some (none, _) => return
  | none => fail ("Illegal option -o " ++ name)

/-- What is said of all options. -/
def listOptions (on : Bool) : ShellM Unit := do
  let e ← env
  let state (letter : Option Char) : Bool := letter.any e.options.contains
  let lines := optionNames.map fun (letter, name) =>
    if on then
      let blanks := String.ofList (List.replicate (16 - name.length) ' ')
      name ++ blanks ++ (if state letter then "on" else "off") ++ "\n"
    else "set " ++ (if state letter then "-o " else "+o ") ++ name ++ "\n"
  let _ ← write 1 ((if on then "Current option settings\n" else "") ++ String.join lines)

/-- Takes options as the shell itself takes them, and gives the arguments behind them. With
`atStart`, the shell starts with these options; then a letter can ask for a script, and what is told
is whether one did. -/
def shellOptions (atStart : Bool) : Nat → List String → ShellM (List String × Bool)
  | 0, args => return (args, false)
  | _, [] => return ([], false)
  | fuel + 1, argument :: rest => do
    match argument.toList with
    | ['-'] =>
      if ! atStart then
        modifyEnv fun e => { e with options := e.options.filter fun c => c != 'x' && c != 'v' }
      return (rest, false)
    | ['-', '-'] =>
      if ! atStart ∧ rest.isEmpty then setArguments []
      return (rest, false)
    | sign :: letters =>
      if sign ≠ '-' ∧ sign ≠ '+' then return (argument :: rest, false)
      let on := sign == '-'
      let named := letters.filter (· == 'o')
      let mut names := rest
      let mut script := false
      for letter in letters do
        if letter = 'c' ∧ atStart then script := true
        else if letter = 'l' ∧ atStart then pure ()
        else if letter = 'o' then
          match names with
          | [] => listOptions on
          | name :: more =>
            setNamed on name
            names := more
        else setOption on letter
      let (args, more) ← shellOptions atStart fuel (rest.drop named.length)
      return (args, script || more)
    | [] => return (argument :: rest, false)

/-- Sets options and arguments of the shell. -/
def configure (args : List String) : ShellM Nat := do
  if args.isEmpty then return ← listSettings "" fun s => s.value.isSome
  let (left, _) ← shellOptions false args.length args
  if ! left.isEmpty ∨ args.getLast? = some "--" then
    if ! left.isEmpty then setArguments left
  return 0

/-- Drops arguments of the shell. -/
def shift (args : List String) : ShellM Nat := do
  let n ← match args with
    | [] => pure 1
    | a :: _ => count a
  let e ← env
  if e.args.length < n then fail "can't shift that many"
  setArguments (e.args.drop n)
  return 0

/-! ## Reading -/

/-- Reads the bytes of a line, with those that no separator divides marked as quoted. Tells whether
the line ends. -/
def readLine (plain : Bool) : Nat → List Fragment → ShellM (List Fragment × Bool)
  | 0, _ => throw .late
  | fuel + 1, acc => do
    spend 1
    let next : ShellM (Option Char) :=
      return (ofBytes (← readBytes 0 1)).toList.head?
    match ← next with
    | none => return (acc.reverse, false)
    | some '\n' => return (acc.reverse, true)
    | some '\x00' => readLine plain fuel acc
    | some c =>
      if c = '\\' ∧ ! plain then
        match ← next with
        | none => return (acc.reverse, false)
        | some '\n' => readLine plain fuel (.seam false :: acc)
        | some d => readLine plain fuel (.seam false :: .letter d true false :: acc)
      else readLine plain fuel (.letter c false true :: acc)

/-- Reads a line into parameters. -/
def readFields (fuel : Nat) (args : List String) : ShellM Nat := do
  let (options, names) ← takeOptions "p:r" args
  if names.isEmpty then fail "arg count"
  let (letters, complete) ← readLine (options.any (·.1 == 'r')) fuel [.seam false]
  let fields := (divide (← env).separators (some names.length) letters).map Fragment.text
  for (name, i) in names.zipIdx do
    assign name (fields[i]?.getD "")
  return if complete then 0 else 1

/-- Takes the next option from arguments. -/
def getopts (args : List String) : ShellM Nat := do
  let e ← env
  let (_, args) ← takeOptions "" args
  match args with
  | wanted :: name :: rest =>
    let source := (if rest.isEmpty then e.args else rest).toArray
    let (index, offset) := if source.size + 1 < e.nextOption then (1, none)
      else (e.nextOption, e.optionLetters)
    let silent := wanted.startsWith ":"
    let left : List Char := match offset with
      | some n => if index ≤ 1 then [] else ((source[index - 2]?.getD "").toList).drop n
      | none => []
    let word := source[index - 1]?.getD ""
    let starts := word.startsWith "-" && 1 < word.length
    let (letters, index) : List Char × Nat :=
      if ! left.isEmpty then (left, index)
      else if starts then (word.toList.drop 1, index + 1) else ([], index)
    let finish (letter : Char) (index : Nat) (left : List Char) (argument : Option String)
        (status : Nat) : ShellM Nat := do
      match argument with
      | some text => assign "OPTARG" text
      | none => pure ()
      assign "OPTIND" (toString index)
      assign name letter.toString
      let size := (source[index - 2]?.getD "").length
      modifyEnv fun e => { e with
        nextOption := index
        optionLetters := if left.isEmpty then none else some (size - left.length) }
      return status
    match letters with
    | [] => finish '?' index [] none 1
    | c :: left =>
      if left.isEmpty ∧ c = '-' ∧ starts then finish '?' index [] none 1
      else
        let complain (text : String) : ShellM Unit := do
          let _ ← write 2 (text ++ "\n")
          modifyEnv fun e => e.erase "OPTARG"
        let known := if c = ':' then [] else wanted.toList.dropWhile (· != c)
        match known with
        | [] =>
          if silent then finish '?' index left (some c.toString) 0
          else
            complain ("Illegal option -" ++ c.toString)
            finish '?' index left none 0
        | _ :: ':' :: _ =>
          if ! left.isEmpty then finish c index [] (some (String.ofList left)) 0
          else
            match source[index - 1]? with
            | some text => finish c (index + 1) [] (some text) 0
            | none =>
              if silent then finish ':' index [] (some c.toString) 0
              else
                complain ("No arg for -" ++ c.toString ++ " option")
                finish '?' index [] none 0
        | _ => finish c index left (some "") 0
  | _ => fail "Usage: getopts optstring var [arg...]"

/-! ## Signals and processes -/

/-- Lets a signal reach a process. Tells whether there is one. -/
def send (signal process : Nat) : ShellM Bool := do
  let m ← get
  let e := m.env
  if process = e.process ∨ process = 0 then
    if signal = 0 then return true
    let traps := e.outerTraps.getD e.traps
    let free := signal = 9 || signal = 19
    match (if free then none else List.lookup signal traps) with
    | some "" => return true
    | some _ =>
      modify fun m => { m with signals := m.signals ++ [(e.process, signal)] }
      return true
    | none =>
      match signalEffect signal with
      | .ends => throw (.killed e.process signal)
      | .ignored => return true
      | .stops => throw .late
  else
    match m.jobs.find? (·.process == process) with
    | none => return false
    | some job =>
      if job.known then return false
      let stopped : Job := { job with ends := m.clock, ended := .signal signal }
      if m.clock < job.ends ∧ signal ≠ 0 ∧ signalEffect signal = .ends then
        modify fun m =>
          { m with jobs := m.jobs.map fun j => if j.process = process then stopped else j }
      return true

/-- Sends signals to processes. -/
def kill (args : List String) : ShellM Nat := do
  let usage : ShellM Nat :=
    fail ("Usage: kill [-s sigspec | -signum | -sigspec] [pid | job]... or\n" ++
      "kill -l [exitstatus]")
  match args with
  | [] => usage
  | first :: rest =>
    let (signal, list, targets) ← (do
      if ! first.startsWith "-" then return (none, false, args)
      match signalOf? 1 (first.drop 1).toString with
      | some n => return (some n, false, rest)
      | none =>
        let (options, targets) ← takeOptions "ls:" args
        let signal ← match options.findRev? (·.1 == 's') with
          | none => pure none
          | some (_, text) =>
            match signalOf? 1 text with
            | some n => pure (some n)
            | none => fail ("invalid signal number or name: " ++ text)
        return (signal, options.any (·.1 == 'l'), targets))
    if list then
      if signal.isSome then return ← usage
      match targets with
      | [] =>
        let names := (List.range (lastSignal + 1)).drop 1 |>.map fun n => signalName n ++ "\n"
        report ("0\n" ++ String.join names) 0
      | target :: _ =>
        let n ← count target
        let n := if 128 < n then n - 128 else n
        if n = 0 ∨ lastSignal < n then
          fail ("invalid signal number or exit status: " ++ target)
        report (signalName n ++ "\n") 0
    else
      if targets.isEmpty then return ← usage
      let mut status := 0
      for target in targets do
        if target.startsWith "%" then fail ("No such job: " ++ target)
        let process ← count (if target.startsWith "-" then (target.drop 1).toString else target)
        if ! (← send (signal.getD 15) process) then
          warn "No such process\n"
          status := 1
      return status

/-- Says what is done about signals. -/
def trap (args : List String) : ShellM Nat := do
  let (_, args) ← takeOptions "" args
  match args with
  | [] =>
    let e ← env
    let lines := (e.traps.mergeSort fun a b => a.1 ≤ b.1).map fun (n, action) =>
      "trap -- " ++ apostrophed action ++ " " ++ signalName n ++ "\n"
    report (String.join lines) 0
  | first :: rest =>
    let digits := ! first.isEmpty && first.toList.all Char.isDigit
    let (action, names) :=
      if rest.isEmpty ∨ digits then (none, args)
      else (if first = "-" then none else some first, rest)
    for name in names do
      match signalOf? 0 name with
      | none =>
        let _ ← write 2 ("trap: " ++ name ++ ": bad trap\n")
        return 1
      | some n =>
        modifyEnv fun e =>
          let others := e.traps.filter (·.1 ≠ n)
          { e with traps := match action with
            | some action => (n, action) :: others
            | none => others }
    return 0

/-- The status of a process that ended. What is said of one that a signal ended is written. -/
def statusOf (ended : Ended) : ShellM Nat := do
  match ended with
  | .status n => return n
  | .signal n =>
    if n ≠ 2 ∧ n ≠ 13 then
      let _ ← write 2 (signalText n ++ "\n")
    return 128 + n

/-- Waits for commands that nobody waits for otherwise. -/
def waitFor (args : List String) : ShellM Nat := do
  let (_, args) ← takeOptions "" args
  let await (job : Job) : ShellM Unit := do
    let m ← get
    wait (job.ends - m.clock)
    modify fun m => { m with
      jobs := m.jobs.map fun j => if j.process = job.process then { j with known := true } else j }
  if args.isEmpty then
    for job in (← get).jobs do await job
    return 0
  let mut status := 0
  for argument in args do
    let n ← count argument
    match (← get).jobs.find? (·.process == n) with
    | none => status := 127
    | some job =>
      await job
      status ← statusOf job.ended
  return status

/-! ## The rest -/

/-- What is said of a command. -/
def describe (verbose : Bool) (name : String) : ShellM Nat := do
  let m ← get
  let e := m.env
  let say (text : String) : ShellM Nat := report ((if verbose then name else "") ++ text ++ "\n") 0
  if keywords.contains name then
    return ← say (if verbose then " is a shell keyword" else name)
  if let some value := List.lookup name e.aliases then
    if verbose then return ← say (" is an alias for " ++ value)
    return ← say ("alias " ++ name ++ "=" ++ apostrophed value)
  if (List.lookup name e.functions).isSome then
    return ← say (if verbose then " is a shell function" else name)
  if isBuiltin name then
    let special := if specialNames.contains name then "special " else ""
    return ← say (if verbose then " is a " ++ special ++ "shell builtin" else name)
  match m.program e.path name with
  | .program _ path =>
    let tracked := if e.tracked.contains name then " a tracked alias for" else ""
    let path := if name.contains '/' then name else path
    say (if verbose then " is" ++ tracked ++ " " ++ path else path)
  | .forbidden =>
    if name.contains '/' then say (if verbose then " is " ++ name else name)
    else report (if verbose then name ++ ": not found\n" else "") 127
  | .missing => report (if verbose then name ++ ": not found\n" else "") 127

/-- The working directory as a path. -/
def herePath (e : Environment) : String :=
  "/" ++ raw ("/".intercalate e.here)

/-- Goes to another directory. -/
def changeDirectory (args : List String) : ShellM Nat := do
  let (_, args) ← takeOptions "LP" args
  let e ← env
  let goTo (target : String) (shows : Bool) : ShellM Nat := do
    let m ← get
    let place : Option Place := match m.place (if target = "" then "." else target) with
      | .ok place => if m.store.node place = some .directory then some place else none
      | .error _ => none
    match place with
    | none => fail ("can't cd to " ++ target)
    | some place =>
      assign "OLDPWD" (herePath e)
      modifyEnv fun e => { e with here := place }
      assign "PWD" (herePath (← env))
      if shows then report (herePath (← env) ++ "\n") 0 else return 0
  match args with
  | [] => match e.value? "HOME" with
    | some home => goTo home false
    | none => return 0
  | "-" :: _ => match e.value? "OLDPWD" with
    | some old => goTo (if old.startsWith "/" then (old.drop 1).toString else old) true
    | none => return 0
  | target :: _ => goTo target false

/-- Four octal digits. -/
def octalText (n : Nat) : String :=
  let digits := Nat.toDigits 8 n
  String.ofList (List.replicate (4 - digits.length) '0' ++ digits)

/-- Tells or sets which rights new files do not have. -/
def umask (args : List String) : ShellM Nat := do
  let (options, args) ← takeOptions "S" args
  let e ← env
  match args with
  | [] =>
    let rights (n : Nat) : String :=
      (if n / 4 % 2 = 0 then "r" else "") ++ (if n / 2 % 2 = 0 then "w" else "") ++
        (if n % 2 = 0 then "x" else "")
    if options.isEmpty then report (octalText e.umask ++ "\n") 0
    else
      report ("u=" ++ rights (e.umask / 64) ++ ",g=" ++ rights (e.umask / 8) ++ ",o=" ++
        rights e.umask ++ "\n") 0
  | mode :: _ =>
    if mode.toList.head?.any Char.isDigit then
      match digitsAt 8 mode.toList with
      | some (n, []) =>
        modifyEnv fun e => { e with umask := n % 512 }
        return 0
      | _ => fail ("Illegal number: " ++ mode)
    else if mode.toList.any fun c => c == '=' || c == '+' || c == '-' then return 0
    else fail ("Illegal mode: " ++ mode)

/-- Tells or sets the words that stand for texts. -/
def setAliases (args : List String) : ShellM Nat := do
  let e ← env
  let shown (a : String × String) : String := a.1 ++ "=" ++ apostrophed a.2 ++ "\n"
  if args.isEmpty then
    return ← report (String.join ((inBuckets 39 (·.1) e.aliases).map shown)) 0
  let mut status := 0
  for argument in args do
    match nameAndValue argument with
    | (name, some value) =>
      modifyEnv fun e => { e with aliases := e.aliases.filter (·.1 ≠ name) ++ [(name, value)] }
    | (name, none) =>
      match List.lookup name (← env).aliases with
      | some value => status ← report (shown (name, value)) status
      | none =>
        let _ ← write 2 ("alias: " ++ name ++ " not found\n")
        status := 1
  return status

/-- Looks for programs along the path and keeps them in mind, or tells which are. -/
def trackPrograms (args : List String) : ShellM Nat := do
  let (options, names) ← takeOptions "r" args
  if ! options.isEmpty then modifyEnv fun e => { e with tracked := [] }
  if ! options.isEmpty ∨ names.isEmpty then
    let e ← env
    let lines := (inBuckets 31 id e.tracked).map fun name => "/usr/bin/" ++ name ++ "\n"
    return ← report (String.join lines) 0
  let mut status := 0
  for name in names do
    let m ← get
    match m.program m.env.path name with
    | .program .. => track name
    | _ =>
      if ! (isBuiltin name ∨ (List.lookup name m.env.functions).isSome) then
        warn (name ++ ": not found")
        status := 1
  return status

/-- Removes words that stand for texts. -/
def removeAliases (args : List String) : ShellM Nat := do
  let (options, args) ← takeOptions "a" args
  if ! options.isEmpty then
    modifyEnv fun e => { e with aliases := [] }
    return 0
  let mut status := 0
  for name in args do
    if (List.lookup name (← env).aliases).isNone then
      let _ ← write 2 ("unalias: " ++ name ++ " not found\n")
      status := 1
    modifyEnv fun e => { e with aliases := e.aliases.filter (·.1 ≠ name) }
  return status

/-- Leaves loops or goes on with their next rounds. -/
def leaveLoops (again : Bool) (args : List String) : ShellM Nat := do
  let n ← match args with
    | [] => pure 1
    | a :: _ =>
      let n ← count a
      if n = 0 then fail ("Illegal number: " ++ a) else pure n
  let n := min n (← env).loops
  if 0 < n then
    modifyEnv fun e => { e with skip := some (if again then .again n else .leave n) }
  return 0

/-- Leaves the shell. -/
def exit (args : List String) : ShellM Nat := do
  match args with
  | [] =>
    let e ← env
    setStatus (e.leaving.getD e.status)
  | a :: _ => setStatus (← count a)
  throw .exit

/-- Leaves a function or a file. -/
def goBack (args : List String) : ShellM Nat := do
  let status ← match args with
    | [] => pure (← env).status
    | a :: _ => count a
  modifyEnv fun e => { e with skip := some .back }
  return status

/-- Runs a built-in command that runs no other. -/
def runPlain (fuel : Nat) (name : String) (args : List String) : ShellM Nat :=
  match name with
  | "false" => return 1
  | "echo" => echo args
  | "printf" => printf args
  | "test" | "[" => test name args
  | "export" => mark name (fun s => { s with exported := true }) (·.exported) args
  | "readonly" => mark name (fun s => { s with fixed := true }) (·.fixed) args
  | "local" => localNames args
  | "unset" => unset args
  | "set" => configure args
  | "shift" => shift args
  | "read" => readFields fuel args
  | "getopts" => getopts args
  | "kill" => kill args
  | "trap" => trap args
  | "wait" => waitFor args
  | "type" => args.foldlM (fun status name => return status ||| (← describe true name)) 0
  | "cd" | "chdir" => changeDirectory args
  | "pwd" => do report (herePath (← env) ++ "\n") 0
  | "umask" => umask args
  | "alias" => setAliases args
  | "unalias" => removeAliases args
  | "break" => leaveLoops false args
  | "continue" => leaveLoops true args
  | "exit" => exit args
  | "return" => goBack args
  | "times" => report "0m0.000000s 0m0.000000s\n0m0.000000s 0m0.000000s\n" 0
  | "hash" => trackPrograms args
  | "fg" | "bg" => fail "No current job"
  | "ulimit" => do
    let _ ← takeOptions "HSatfdscmlpnvwr" args
    return 0
  | "command" => do
    let (options, names) ← takeOptions "pvV" args
    match names with
    | [] => return 0
    | name :: _ =>
      if options.any (·.1 == 'V') then describe true name
      else if options.any (·.1 == 'v') then describe false name
      else return 0
  | _ => return 0

end Anchored.Shell
