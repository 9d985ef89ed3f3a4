import Anchored.Shell.Builtin
import Anchored.Shell.Program.Cat
import Anchored.Shell.Program.Echo
import Anchored.Shell.Program.Sleep

/-!
# Running scripts

A command runs on the machine and gives a status. What it does besides is in the machine; where a
script does not go on with the next command, the environment or a stop tells why.
-/

namespace Anchored.Shell

/-- What depends on the status of a command. -/
structure Role where
  /-- Something asks for the status, so that the command may fail. -/
  tested : Bool
  /-- The shell has nothing to do behind the command. -/
  last : Bool
  deriving DecidableEq, Repr

/-- A command like any other. -/
def Role.ordinary : Role :=
  ⟨false, false⟩

/-- A command whose status is asked for. -/
def Role.condition : Role :=
  ⟨true, false⟩

/-! ## Loops -/

/-- How a loop goes on behind a command in it. -/
inductive Turn where
  | on
  | leave
  | again
  | back
  deriving DecidableEq, Repr

/-- Looks at how a loop goes on. -/
def turn : ShellM Turn := do
  let setSkip (skip : Option Skip) : ShellM Unit := modifyEnv fun e => { e with skip }
  match (← env).skip with
  | none => return .on
  | some .back => return .back
  | some (.leave n) =>
    setSkip (if n ≤ 1 then none else some (.leave (n - 1)))
    return .leave
  | some (.again n) =>
    if n ≤ 1 then
      setSkip none
      return .again
    setSkip (some (.again (n - 1)))
    return .leave

/-- Runs something as a loop. -/
def insideLoop (body : ShellM Nat) : ShellM Nat := do
  let loops := (← env).loops
  modifyEnv fun e => { e with loops := loops + 1 }
  let status ← body
  modifyEnv fun e => { e with loops }
  return status

/-! ## Redirections -/

/-- A redirection whose words are expanded. -/
inductive Opening where
  | file (handle : Nat) (access : Access) (path : String)
  | copy (handle : Nat) (source : Option Nat)
  | document (handle : Nat) (text : Word)

/-- The handle that an opening is for. -/
def Opening.handle : Opening → Nat
  | .file handle .. | .copy handle _ | .document handle _ => handle

/-- The place at which a file can be created or replaced. -/
def Machine.target (m : Machine) (path : String) : Except Fault Place :=
  match Store.spellingFault? (shown path) with
  | some fault => .error fault
  | none =>
    if outerDirectories.contains path then .error .directory
    else
      let (start, names) := m.walk path
      m.store.fileTarget start names

/-- Opens a file. -/
def openFile (handle : Nat) (access : Access) (path : String) : ShellM Unit := do
  let m ← get
  let adopt (o : Opened) : ShellM Unit := do setHandle handle (some (← addOpened o))
  let complain (verb nothing : String) (fault : Fault) : ShellM Unit :=
    fail ("cannot " ++ verb ++ " " ++ path ++ ": " ++ match fault with
      | .missing | .notDirectory => nothing
      | fault => faultText fault)
  match device? path, access with
  | some .void, _ => adopt .void
  | some .full, _ => adopt .full
  | some (.handle n), _ =>
    match ← openedAt n with
    | some (index, _) => setHandle handle (some index)
    | none => complain "open" "No such file" .missing
  | none, .read =>
    match m.place path with
    | .error fault =>
      if outerDirectories.contains path then adopt .directory
      else complain "open" "No such file" fault
    | .ok place =>
      match m.store.node place with
      | some (.file _) => adopt (.file place 0 true false false)
      | some .directory => adopt .directory
      | none => complain "open" "No such file" .missing
  | none, access =>
    match m.target path with
    | .error fault => complain "create" "Directory nonexistent" fault
    | .ok place =>
      let found := (m.store.node place).isSome
      let guarded := access = .write && m.env.options.contains 'C'
      if found ∧ guarded then fail ("cannot create " ++ path ++ ": File exists")
      let empties := access = .write ∨ access = .overwrite
      if ! found ∨ empties then putFile place .empty
      adopt (.file place 0 (access = .readWrite) true (access = .append))

/-- Lets a handle stand for what another one stands for, or for nothing. -/
def copyHandle (handle : Nat) (source : Option Nat) : ShellM Unit := do
  match source with
  | none => setHandle handle none
  | some n =>
    if n = handle then return
    match ← openedAt n with
    | some (index, _) => setHandle handle (some index)
    | none => fail (toString n ++ ": Bad file descriptor")

/-- Lets the handles of openings stand again for what they stood for before. -/
def restoreHandles (openings : List Opening) (before : List (Nat × Nat)) : ShellM Unit :=
  openings.foldr (fun o rest => do
    setHandle o.handle (List.lookup o.handle before)
    rest) (pure ())

/-! ## Processes -/

/-- A number for a process. -/
def newProcess : ShellM Nat := do
  spendOnProcess
  modifyGet fun m => (m.processes, { m with processes := m.processes + 1 })

/-- Runs something as a process. A signal to the process ends it. -/
def asProcess (self : Nat) (body : ShellM Nat) : ShellM Ended :=
  tryCatch (do return .status ((← body) % 256)) fun
    | .killed process signal =>
      if process = self then return .signal signal else throw (.killed process signal)
    | stop => throw stop

/-- The status with which something ends that a shell runs. -/
def endStatus (body : ShellM Nat) : ShellM Nat :=
  tryCatch body fun
    | .failed | .exit => return (← env).status
    | stop => throw stop

/-- The environment of a shell that another one starts. -/
def Environment.ofShell (outer : Environment) (self : Nat) (isNew : Bool) : Environment where
  name := "sh"
  args := []
  settings :=
    let own (name value : String) := (name, (⟨some value, false, false⟩ : Setting))
    [own "IFS" " \t\n", own "OPTIND" "1", own "PS1" "# ", own "PS2" "> ", own "PS4" "+ "] ++
      (outer.settings.filter fun (name, s) =>
        s.exported && ! ["IFS", "OPTIND", "PS1", "PS2", "PS4"].contains name).map
        fun (name, s) => (name, { s with fixed := false })
  functions := []
  aliases := []
  options := []
  traps := outer.traps.filter fun (n, action) => n ≠ 0 && action == ""
  handles := outer.handles
  here := outer.here
  status := 0
  captured := 0
  line := 0
  builtin := none
  skip := none
  loops := 0
  depth := 0
  saved := []
  nextOption := 1
  optionLetters := none
  tracked := []
  process := if isNew then self else outer.self
  self := if isNew then self else outer.self
  outerTraps := none
  leaving := none
  umask := outer.umask
  lastJob := none

/-- What of the traps is left in a shell within a shell. -/
def innerTraps (traps : List (Nat × String)) : List (Nat × String) :=
  traps.filter fun (n, action) => n ≠ 0 && action == ""

/-! ## Words of a command -/

/-- The words of a command behind a built-in command that only finds the command; none if that is
all that runs. Tells whether the command is looked for along the usual path. -/
def withoutPrefix : List String → Option (List String × Bool)
  | [] => none
  | word :: rest =>
    match word.toList with
    | ['-', '-'] => if rest.isEmpty then none else some (rest, false)
    | '-' :: c :: cs =>
      if (c :: cs).all (· == 'p') then (withoutPrefix rest).map fun (rest, _) => (rest, true)
      else none
    | _ => some (word :: rest, false)

/-- What runs for the words of a command, whether functions are left out, and whether it is looked
for along the usual path. -/
def stripPrefixes (e : Environment) : Nat → Bool → Bool → List String → List String × Bool × Bool
  | 0, plain, usual, words => (words, plain, usual)
  | fuel + 1, plain, usual, words =>
    match words with
    | "command" :: rest =>
      if ! plain ∧ (List.lookup "command" e.functions).isSome then (words, plain, usual)
      else
        match withoutPrefix rest with
        | none => (words, plain, usual)
        | some (words, u) => stripPrefixes e fuel true (usual || u) words
    | words => (words, plain, usual)

/-- The path along which programs usually are. -/
def usualPath : String :=
  "/usr/local/sbin:/usr/local/bin:/usr/sbin:/usr/bin:/sbin:/bin"

mutual

/-- What a script writes. -/
def capture : Nat → Option Command → ShellM String
  | 0, _ => throw .late
  | _, none => return ""
  | fuel + 1, some command => do
    let index ← addOpened (.channel .empty)
    let ended ← apart fuel true (do
      setHandle 1 (some index)
      run fuel ⟨false, true⟩ command)
    let status ← statusOf ended
    modifyEnv fun e => { e with captured := status }
    match (← get).opened[index]? with
    | some (.channel c) =>
      setOpened index .void
      return ofBytes c.bytes
    | _ => return ""

/-- Runs something, and what is to be done at the end of the shell. -/
def conclude : Nat → ShellM Nat → ShellM Nat
  | 0, _ => throw .late
  | fuel + 1, body => do
    let status ← endStatus body
    let e ← env
    match List.lookup 0 e.traps with
    | none => return status
    | some action =>
      modifyEnv fun e => { e with
        traps := e.traps.filter (·.1 ≠ 0), skip := none, status, leaving := some status }
      endStatus (do
        let _ ← runText fuel .ordinary action
        return status)

/-- Runs something in a copy of the environment: as a process of its own, or as the last thing that
the shell does. -/
def apart : Nat → Bool → ShellM Nat → ShellM Ended
  | 0, _, _ => throw .late
  | fuel + 1, isNew, body => do
    let before ← env
    let self ← if isNew then newProcess else pure before.self
    modifyEnv fun e => { e with
      self
      outerTraps := some (e.outerTraps.getD e.traps)
      traps := innerTraps e.traps }
    let ended ← asProcess self (conclude fuel body)
    modifyEnv fun _ => before
    return ended

/-- Does what is to be done about signals that came. -/
def answerSignals : Nat → ShellM Unit
  | 0 => throw .late
  | fuel + 1 => do
    let m ← get
    if m.signals.isEmpty ∨ m.env.outerTraps.isSome ∨ m.env.skip.isSome then return
    match m.signals.find? (·.1 == m.env.process) with
    | none => return
    | some (process, signal) =>
      modify fun m => { m with signals := m.signals.erase (process, signal) }
      match List.lookup signal m.env.traps with
      | none => answerSignals fuel
      | some action =>
        let status := m.env.status
        modifyEnv fun e => { e with leaving := some (e.leaving.getD status) }
        let _ ← runText fuel .ordinary action
        modifyEnv fun e => { e with leaving := m.env.leaving }
        if (← env).skip ≠ some .back then setStatus status
        answerSignals fuel

/-- Runs a text as a script. A line that is none ends it. -/
def runText : Nat → Role → String → ShellM Nat
  | 0, _, _ => throw .late
  | fuel + 1, role, text => do
    spend (10 + text.length / 4)
    let start := Reading.ofText text
    runLines fuel role start.steps start 0

/-- Runs what is left of a script. -/
def runLines : Nat → Role → Nat → Reading → Nat → ShellM Nat
  | 0, _, _, _, _ => throw .late
  | fuel + 1, role, steps, r, status => do
    match r.next steps (← env).aliases with
    | .error fault =>
      modifyEnv fun e => { e with line := fault.line }
      fail fault.reason
    | .ok (none, _) => return status
    | .ok (some command, r) =>
      let status ← match command with
        | none => pure status
        | some command => run fuel { role with last := role.last && r.isOver } command
      if (← env).skip.isSome then return status
      runLines fuel role steps r status

/-- Runs a command. -/
def run : Nat → Role → Command → ShellM Nat
  | 0, _, _ => throw .late
  | fuel + 1, role, command => do
    spend 1
    if ← hasOption 'n' then return 0
    answerSignals fuel
    let tested : Role := ⟨role.tested, false⟩
    let (status, checked) ← match command with
      | .simple line assignments words redirects => do
        pure (← runSimple fuel role line assignments words redirects, true)
      | .pipe commands background => do
        if background then pure (← runAside fuel (runStages fuel role none commands), true)
        else
          let status ← statusOf (← runStages fuel role none commands)
          pure (status, true)
      | .subshell line body redirects => do
        pure (← runSubshell fuel role line body redirects, true)
      | .background line body redirects => do
        modifyEnv fun e => { e with line := if line = 0 then e.line else line }
        let openings ← expandRedirects fuel redirects
        let status ← runAside fuel (apart fuel true (do
          openAll fuel openings
          run fuel ⟨false, true⟩ body))
        pure (status, true)
      | .redirected line body redirects => do
        modifyEnv fun e => { e with line }
        let openings ← expandRedirects fuel redirects
        let before := (← env).handles
        let status ← (do
          if ← attempt (openAll fuel openings) then run fuel tested body else return 2)
        restoreHandles openings before
        pure (status, false)
      | .negated body => do
        let status ← run fuel .condition body
        pure (if status = 0 then 1 else 0, false)
      | .both first second => do
        let status ← run fuel .condition first
        if status ≠ 0 ∨ (← env).skip.isSome then return status
        pure (← run fuel role second, false)
      | .either first second => do
        let status ← run fuel .condition first
        if status = 0 ∨ (← env).skip.isSome then return status
        pure (← run fuel role second, false)
      | .sequence first second => do
        let status ← run fuel tested first
        if (← env).skip.isSome then return status
        pure (← run fuel role second, false)
      | .branch condition body otherwise => do
        let status ← run fuel .condition condition
        if (← env).skip.isSome then return status
        if status = 0 then pure (← run fuel role body, false)
        else
          match otherwise with
          | some body => pure (← run fuel role body, false)
          | none => pure (0, false)
      | .repeated whileFails condition body => do
        pure (← insideLoop (runRounds fuel tested whileFails condition body 0), false)
      | .each line name words body => do
        modifyEnv fun e => { e with line }
        let values ← expandWords fuel false words
        pure (← insideLoop (runEach fuel tested name body values 0), false)
      | .select line word cases => do
        modifyEnv fun e => { e with line }
        let text ← textOf (capture fuel) fuel .single word
        pure (← runCases fuel role text cases, false)
      | .define name body => do
        modifyEnv fun e =>
          { e with functions := (name, body) :: e.functions.filter (·.1 ≠ name) }
        pure (0, false)
    setStatus status
    answerSignals fuel
    if checked ∧ ! role.tested ∧ status ≠ 0 then
      if ← hasOption 'e' then throw .exit
    return (← env).status

/-- Runs the rounds of a loop. -/
def runRounds : Nat → Role → Bool → Command → Command → Nat → ShellM Nat
  | 0, _, _, _, _, _ => throw .late
  | fuel + 1, role, whileFails, condition, body, status => do
    let holds ← run fuel .condition condition
    match ← turn with
    | .back => return holds
    | .leave => return status
    | .again => runRounds fuel role whileFails condition body status
    | .on =>
      if (holds != 0) != whileFails then return status
      let status ← run fuel role body
      match ← turn with
      | .on | .again => runRounds fuel role whileFails condition body status
      | .leave | .back => return status

/-- Runs a command for every value of a parameter. -/
def runEach : Nat → Role → String → Command → List String → Nat → ShellM Nat
  | 0, _, _, _, _, _ => throw .late
  | _, _, _, _, [], status => return status
  | fuel + 1, role, name, body, value :: rest, _ => do
    assign name value
    let status ← run fuel role body
    match ← turn with
    | .on | .again => runEach fuel role name body rest status
    | .leave | .back => return status

/-- Runs the first command one of whose patterns matches. -/
def runCases : Nat → Role → String → List (List Word × Option Command) → ShellM Nat
  | 0, _, _, _ => throw .late
  | _, _, _, [] => return 0
  | fuel + 1, role, text, (patterns, body) :: rest => do
    if ← matchesAny fuel text patterns then
      match body with
      | some body => run fuel role body
      | none => return 0
    else runCases fuel role text rest

/-- One of the patterns matches. -/
def matchesAny : Nat → String → List Word → ShellM Bool
  | 0, _, _ => throw .late
  | _, _, [] => return false
  | fuel + 1, text, pattern :: rest => do
    if ← matchesText (capture fuel) fuel pattern text then return true
    matchesAny fuel text rest

/-- Expands words to fields. Where `assigns` holds, assignments are not divided. -/
def expandWords : Nat → Bool → List Word → ShellM (List String)
  | 0, _, _ => throw .late
  | _, _, [] => return []
  | fuel + 1, assigns, word :: rest => do
    let fields ← match assigns, assignment? word with
      | true, some (name, value) => do
        pure [name ++ "=" ++ (← textOf (capture fuel) fuel .assigned value)]
      | _, _ => fieldsOf (capture fuel) fuel word
    return fields ++ (← expandWords fuel assigns rest)

/-- Expands the words of redirections. -/
def expandRedirects : Nat → List Redirect → ShellM (List Opening)
  | 0, _ => throw .late
  | _, [] => return []
  | fuel + 1, redirect :: rest => do
    let opening ← match redirect with
      | .file handle access path => do
        pure (.file handle access (← textOf (capture fuel) fuel .single path))
      | .copy handle source => pure (.copy handle source)
      | .document handle text => pure (.document handle text)
      | .copyNamed handle source => do
        let text ← textOf (capture fuel) fuel .single source
        match text.toList with
        | ['-'] => pure (.copy handle none)
        | [c] =>
          if c.isDigit then pure (.copy handle (some (c.toNat - '0'.toNat)))
          else fail "Syntax error: Bad fd number"
        | _ => fail "Syntax error: Bad fd number"
    return opening :: (← expandRedirects fuel rest)

/-- Opens what redirections ask for. -/
def openAll : Nat → List Opening → ShellM Unit
  | 0, _ => throw .late
  | _, [] => return
  | fuel + 1, opening :: rest => do
    match opening with
    | .file handle access path => openFile handle access path
    | .copy handle source => copyHandle handle source
    | .document handle text =>
      let found ← fragments (capture fuel) fuel .document false false text
      setHandle handle (some (← addOpened (.channel (.of (toBytes (Fragment.text found))))))
    openAll fuel rest

/-- Runs a command in a shell within the shell. -/
def runSubshell : Nat → Role → Nat → Command → List Redirect → ShellM Nat
  | 0, _, _, _, _ => throw .late
  | fuel + 1, role, line, body, redirects => do
    modifyEnv fun e => { e with line }
    let openings ← expandRedirects fuel redirects
    let isLast := role.last && (← env).traps.isEmpty
    let ended ← apart fuel (! isLast) (do
      openAll fuel openings
      run fuel ⟨role.tested, true⟩ body)
    statusOf ended

/-- Runs commands of which each reads what the one before writes. All of them start at once. -/
def runStages : Nat → Role → Option Nat → List Command → ShellM Ended
  | 0, _, _, _ => throw .late
  | _, _, _, [] => return .status 0
  | fuel + 1, role, input, command :: rest => do
    let start := (← get).clock
    let output ← if rest.isEmpty then pure none else do
      pure (some (← addOpened (.channel .empty)))
    let ended ← apart fuel true (do
      if input.isSome then setHandle 0 input
      if output.isSome then setHandle 1 output
      run fuel ⟨role.tested, true⟩ command)
    if rest.isEmpty then return ended
    let _ ← statusOf ended
    let finish := (← get).clock
    modify fun m => { m with clock := start }
    let ended ← runStages fuel role output rest
    modify fun m => { m with clock := max m.clock finish }
    return ended

/-- Runs something that nobody waits for. -/
def runAside : Nat → ShellM Ended → ShellM Nat
  | 0, _ => throw .late
  | fuel + 1, body => do
    let m ← get
    let process := m.processes
    let before := m.env.handles
    setHandle 0 (some (← addOpened .void))
    let never := m.clock + 2 * m.timeLimit + 1
    let (ended, ends) ← tryCatch (do return (← body, (← get).clock)) fun
      | .late => do
        if (← get).steps = 0 then throw .late
        return (.status 0, never)
      | stop => throw stop
    modifyEnv fun e => { m.env with lastJob := some process, handles := before, status := e.status }
    modify fun after => { after with
      clock := m.clock
      jobs := ⟨process, ends, ended, false⟩ :: after.jobs }
    if fuel = 0 then throw .late
    return 0

/-- Runs a simple command. -/
def runSimple : Nat → Role → Nat → List (String × Word) → List Word → List Redirect → ShellM Nat
  | 0, _, _, _, _, _ => throw .late
  | fuel + 1, role, line, assignments, words, redirects => do
    modifyEnv fun e => { e with line, captured := 0 }
    let names := (words.map lettersOf).filter fun w => w != "command" && ! w.startsWith "-"
    let declares := takesAssignments (names.headD "")
    let fields ← expandWords fuel declares words
    let e ← env
    let (fields, plain, usual) := stripPrefixes e fields.length false false fields
    let name := fields.headD ""
    let function := if plain ∨ fields.isEmpty then none else List.lookup name e.functions
    let special := ! plain && specialNames.contains name
    let executes := name = "exec" && 1 < fields.length
    let isLocal := ! fields.isEmpty && ! special && ! executes
    let openings ← expandRedirects fuel redirects
    let trace := (← get).env.handles.lookup 2
    let before := (← env).handles
    let body : ShellM Nat := do
      if ! (← attempt (openAll fuel openings)) then
        if special then throw .failed else return 2
      let set ← assignAll fuel isLocal assignments
      if (← env).options.contains 'x' then writeTrace fuel trace (set ++ fields)
      match fields, function with
      | [], _ => return (← env).captured
      | _ :: args, some body => runFunction fuel role body args
      | name :: args, none =>
        if isBuiltin name then runBuiltin fuel role special name args
        else
          let e ← env
          let path := if usual then usualPath else e.path
          runProgram fuel role path name args
    if isLocal then modifyEnv fun e => { e with saved := [] :: e.saved }
    let tidy : ShellM Unit := do
      if isLocal then restoreLocals
      if name ≠ "exec" then restoreHandles openings before
    let status ← tryCatch body fun stop => do
      tidy
      throw stop
    tidy
    return status

/-- Sets parameters, and gives what is told of it. -/
def assignAll : Nat → Bool → List (String × Word) → ShellM (List String)
  | 0, _, _ => throw .late
  | _, _, [] => return []
  | fuel + 1, isLocal, (name, word) :: rest => do
    let value ← textOf (capture fuel) fuel .assigned word
    if isLocal then makeLocal true name (some value) else assign name value
    return (name ++ "=" ++ value) :: (← assignAll fuel isLocal rest)

/-- Writes the words of a command behind what marks a trace. -/
def writeTrace : Nat → Option Nat → List String → ShellM Unit
  | 0, _, _ => throw .late
  | fuel + 1, index, words => do
    let e ← env
    let sign := (e.value? "PS4").getD ""
    modifyEnv fun e => { e with options := e.options.filter (· != 'x') }
    let sign ← match Reading.document sign with
      | .ok word => do
        pure (Fragment.text (← fragments (capture fuel) fuel .document false false word))
      | .error _ => pure sign
    modifyEnv fun now => { now with options := e.options }
    let before := (← env).handles
    setHandle 2 index
    let _ ← write 2 (sign ++ " ".intercalate words ++ "\n")
    modifyEnv fun e => { e with handles := before }

/-- Runs a function. -/
def runFunction : Nat → Role → Command → List String → ShellM Nat
  | 0, _, _, _ => throw .late
  | fuel + 1, role, body, args => do
    let before ← env
    if 1000 ≤ before.depth then fail "Maximum function recursion depth (1000) reached"
    modifyEnv fun e => { e with
      args, loops := 0, depth := e.depth + 1, nextOption := 1
      optionLetters := none }
    let restore : ShellM Unit := modifyEnv fun e => { e with
      args := before.args, loops := before.loops
      depth := before.depth, nextOption := before.nextOption
      optionLetters := before.optionLetters
      skip := if e.skip = some .back then none else e.skip }
    let status ← tryCatch (run fuel ⟨role.tested, false⟩ body) fun stop => do
      restore
      throw stop
    restore
    return status

/-- Runs a built-in command. -/
def runBuiltin : Nat → Role → Bool → String → List String → ShellM Nat
  | 0, _, _, _, _ => throw .late
  | fuel + 1, role, special, name, args => do
    let before := (← env).builtin
    let restore : ShellM Unit := modifyEnv fun e => { e with builtin := before }
    modifyEnv fun e => { e with builtin := some name }
    let body : ShellM Nat :=
      match name with
      | "eval" => if args.isEmpty then return 0
          else runText fuel ⟨role.tested, false⟩ (" ".intercalate args)
      | "." => runFile fuel args
      | "exec" => execute fuel args
      | name => runPlain fuel name args
    let status ← tryCatch body fun stop => do
      restore
      match stop with
      | .failed => if special then throw .failed else return (← env).status
      | stop => throw stop
    restore
    return status

/-- Runs a file as a part of the script. -/
def runFile : Nat → List String → ShellM Nat
  | 0, _ => throw .late
  | fuel + 1, args => do
    match (← takeOptions "" args).2 with
    | [] => return 0
    | path :: _ =>
      let m ← get
      let candidates := if path.contains '/' then [path]
        else (m.env.path.splitOn ":").map fun directory =>
          if directory = "" then path else directory ++ "/" ++ path
      let isFile (candidate : String) : Bool := match m.node? candidate with
        | some (.file _) => true
        | _ => false
      let found := if path.contains '/' then some path else candidates.find? isFile
      match found with
      | none => fail (path ++ ": not found")
      | some found =>
        let before := (← env).handles
        openFile 9 .read found
        let text := ofBytes (← Cat.readRest 9)
        modifyEnv fun e => { e with handles := before, builtin := some found }
        let status ← runText fuel .ordinary text
        modifyEnv fun e => { e with skip := if e.skip = some .back then none else e.skip }
        return status

/-- Runs a program in place of the shell. -/
def execute : Nat → List String → ShellM Nat
  | 0, _ => throw .late
  | fuel + 1, args => do
    match (← takeOptions "" args).2 with
    | [] => return 0
    | name :: args =>
      match (← get).program (← env).path name with
      | .program program _ =>
        modifyEnv fun e => { e with traps := innerTraps e.traps, builtin := none }
        match ← start fuel false program args with
        | .status n =>
          setStatus n
          throw .exit
        | .signal n => throw (.killed (← env).self n)
      | found =>
        let forbidden := found = .forbidden
        warn (name ++ ": " ++ if forbidden then "Permission denied" else "not found")
        setStatus (if forbidden then 126 else 127)
        throw .exit

/-- Runs a program by its name. -/
def runProgram : Nat → Role → String → String → List String → ShellM Nat
  | 0, _, _, _, _ => throw .late
  | fuel + 1, role, path, name, args => do
    match (← get).program path name with
    | .missing =>
      warn (name ++ ": " ++ if name = "" then "Permission denied" else "not found")
      return 127
    | .forbidden =>
      warn (name ++ ": Permission denied")
      return if name.contains '/' then 126 else 127
    | .program program _ =>
      let e ← env
      track name
      if role.last ∧ e.traps.isEmpty then
        match ← start fuel false program args with
        | .status n =>
          setStatus n
          throw .exit
        | .signal n => throw (.killed e.self n)
      else statusOf (← start fuel true program args)

/-- Starts a program, as a new process or in place of the shell. -/
def start : Nat → Bool → String → List String → ShellM Ended
  | 0, _, _, _ => throw .late
  | fuel + 1, isNew, program, args => do
    spendOnProcess
    match program with
    | "cat" => do return .status (← Cat.run args)
    | "sleep" => do return .status (← Sleep.run args)
    | "echo" => do return .status (← Echo.run args)
    | "true" => return .status 0
    | "false" => return .status 1
    | _ => do
      let before ← env
      let self ← if isNew then newProcess else pure before.self
      modifyEnv fun _ => Environment.ofShell before self isNew
      let ended ← asProcess (if isNew then self else before.self)
        (conclude fuel (runShell fuel args))
      modifyEnv fun _ => before
      return ended

/-- Runs a shell. -/
def runShell : Nat → List String → ShellM Nat
  | 0, _ => throw .late
  | fuel + 1, args => do
    let (args, isScript) ← shellOptions true args.length args
    match isScript, args with
    | true, [] => fail "-c requires an argument"
    | true, text :: rest =>
      modifyEnv fun e => { e with name := rest.headD e.name, args := rest.drop 1 }
      runText fuel ⟨false, ! (← hasOption 's')⟩ text
    | false, args =>
      let readsInput := args.isEmpty || (← hasOption 's')
      if readsInput then
        setArguments args
        modifyEnv fun e => { e with options := 's' :: e.options.filter (· != 's') }
        runText fuel .ordinary (ofBytes (← Cat.readRest 0))
      else
        let path := args.headD ""
        let before := (← env).handles
        openFile 9 .read path
        let text := ofBytes (← Cat.readRest 9)
        modifyEnv fun e => { e with handles := before, name := path, args := args.drop 1 }
        runText fuel .ordinary text

end

end Anchored.Shell
