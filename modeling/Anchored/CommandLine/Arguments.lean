/-!
# Arguments

The arguments of the command line: flags, and options with a value. An option stands at most once;
its value is the next argument, unless that looks like a flag, or follows in the same argument.
-/

namespace Anchored.CommandLine

/-- What the arguments say. -/
structure Arguments where
  /-- The file to edit; it wins over the one of the request. -/
  file : Option String
  /-- The text that names the place of the edit. -/
  find : Option String
  /-- What to put there. -/
  replace : Option String
  /-- A file that holds a request. -/
  request : Option String
  /-- A file that holds settings. -/
  config : Option String
  /-- A file to write the response to. -/
  output : Option String
  fuzzy : Bool
  dryRun : Bool
  check : Bool
  json : Bool
  deriving DecidableEq, Repr

namespace Arguments

/-- No arguments. -/
def none : Arguments :=
  ⟨.none, .none, .none, .none, .none, .none, false, false, false, false⟩

end Arguments

/-- An option, which has a value. -/
inductive Setting where
  | file
  | find
  | replace
  | request
  | config
  | output
  deriving DecidableEq, Repr

/-- A flag, which has none. -/
inductive Flag where
  | fuzzy
  | dryRun
  | check
  | json
  | help
  | version
  deriving DecidableEq, Repr

/-- What an argument names. -/
abbrev Name := Setting ⊕ Flag

/-- The option or flag of a long name. -/
def Name.ofLong : List Char → Option Name := fun name =>
  match String.ofList name with
  | "file" => some (.inl .file)
  | "find" => some (.inl .find)
  | "replace" => some (.inl .replace)
  | "request" => some (.inl .request)
  | "config" => some (.inl .config)
  | "output" => some (.inl .output)
  | "fuzzy" => some (.inr .fuzzy)
  | "dry-run" => some (.inr .dryRun)
  | "check" => some (.inr .check)
  | "json" => some (.inr .json)
  | "help" => some (.inr .help)
  | "version" => some (.inr .version)
  | _ => none

/-- The option or flag of a letter. -/
def Name.ofLetter : Char → Option Name
  | 'f' => some (.inl .file)
  | 'r' => some (.inl .request)
  | 'c' => some (.inl .config)
  | 'o' => some (.inl .output)
  | 'j' => some (.inr .json)
  | 'h' => some (.inr .help)
  | 'V' => some (.inr .version)
  | _ => none

/-- What a command line asks for. -/
inductive Invocation where
  | run (args : Arguments)
  | help
  | version
  /-- The arguments make no sense. -/
  | misuse
  deriving DecidableEq, Repr

namespace Arguments

/-- The value of an option. -/
def value? (a : Arguments) : Setting → Option String
  | .file => a.file
  | .find => a.find
  | .replace => a.replace
  | .request => a.request
  | .config => a.config
  | .output => a.output

/-- The arguments with an option that was not given before. -/
def set? (a : Arguments) (s : Setting) (value : String) : Option Arguments :=
  if (a.value? s).isSome then Option.none
  else match s with
    | .file => some { a with file := value }
    | .find => some { a with find := value }
    | .replace => some { a with replace := value }
    | .request => some { a with request := value }
    | .config => some { a with config := value }
    | .output => some { a with output := value }

/-- The arguments with a flag that was not given before, or what the flag asks for instead. -/
def raise (a : Arguments) (f : Flag) : Except Invocation Arguments :=
  let once (given : Bool) (next : Arguments) : Except Invocation Arguments :=
    if given then .error .misuse else .ok next
  match f with
  | .fuzzy => once a.fuzzy { a with fuzzy := true }
  | .dryRun => once a.dryRun { a with dryRun := true }
  | .check => once a.check { a with check := true }
  | .json => once a.json { a with json := true }
  | .help => .error .help
  | .version => .error .version

end Arguments

/-- What is read next: any argument, or the value of an option. -/
inductive Expecting where
  | anything
  | value (s : Setting)

/-- The argument can be a value: it is not like a flag. A lone hyphen is a value. -/
def isValue (arg : List Char) : Bool :=
  match arg with
  | ['-'] => true
  | '-' :: _ => false
  | _ => true

/-- Reads letters behind a hyphen. The letters behind one that names an option are its value. -/
def readLetters (a : Arguments) : List Char → Except Invocation (Arguments × Expecting)
  | [] => .ok (a, .anything)
  | c :: rest =>
    match Name.ofLetter c with
    | none => .error .misuse
    | some (.inr f) =>
      match a.raise f with
      | .error e => .error e
      | .ok a => readLetters a rest
    | some (.inl s) =>
      match rest with
      | [] => .ok (a, .value s)
      | '=' :: value | value =>
        match a.set? s (String.ofList value) with
        | some a => .ok (a, .anything)
        | none => .error .misuse

/-- Reads an argument that starts with two hyphens, past them. -/
def readLong (a : Arguments) (text : List Char) : Except Invocation (Arguments × Expecting) :=
  let name := text.takeWhile (· != '=')
  match Name.ofLong name, text.drop name.length with
  | some (.inl s), [] => .ok (a, .value s)
  | some (.inl s), _ :: value =>
    match a.set? s (String.ofList value) with
    | some a => .ok (a, .anything)
    | none => .error .misuse
  | some (.inr f), [] =>
    match a.raise f with
    | .error e => .error e
    | .ok a => .ok (a, .anything)
  | _, _ => .error .misuse

/-- Reads arguments one after another. -/
def readFrom (a : Arguments) : Expecting → List String → Invocation
  | .anything, [] => .run a
  | .value _, [] => .misuse
  | .value s, arg :: rest =>
    if isValue arg.toList then
      match a.set? s arg with
      | some a => readFrom a .anything rest
      | none => .misuse
    else .misuse
  | .anything, arg :: rest =>
    match arg.toList with
    | ['-', '-'] => if rest.isEmpty then .run a else .misuse
    | '-' :: '-' :: text =>
      match readLong a text with
      | .ok (a, next) => readFrom a next rest
      | .error asked => asked
    | '-' :: c :: text =>
      match readLetters a (c :: text) with
      | .ok (a, next) => readFrom a next rest
      | .error asked => asked
    | _ => .misuse

/-- What a list of arguments asks for. -/
def Invocation.read (args : List String) : Invocation :=
  readFrom .none .anything args

end Anchored.CommandLine
