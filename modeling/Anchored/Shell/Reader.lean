import Anchored.Shell.Token

/-!
# Reading commands

A script is read one list of commands at a time, each up to the end of a line that no command is
still open on. What stands before a faulty line can run, therefore, before the fault is found.
-/

namespace Anchored.Shell

/-- The built-in commands whose names no function can have. -/
def specialNames : List String :=
  [".", ":", "break", "continue", "eval", "exec", "exit", "export", "local", "readonly", "return",
    "set", "shift", "times", "trap", "unset"]

/-- The command and what follows it. -/
def follow (first : Option Command) (second : Command) : Option Command :=
  match first with
  | none => some second
  | some first => some (.sequence first second)

/-- The command as one that nobody waits for. -/
def inBackground : Command → Command
  | .pipe commands _ => .pipe commands true
  | .redirected line body redirects => .background line body redirects
  | body => .background 0 body []

/-- The words `"$@"`. -/
def allArguments : Word :=
  [.mark, .parameter "@" .value false [], .mark]

/-- The redirection of a handle by a word. -/
def redirectOf (handle : Nat) (what : Redirection) (word : Word) (text : Word) : Redirect :=
  match what with
  | .file access => .file handle access word
  | .document _ => .document handle text
  | .copy =>
    match plain? word with
    | some "-" => .copy handle none
    | some text =>
      match text.toList with
      | [c] => if c.isDigit then .copy handle (some (c.toNat - '0'.toNat))
          else .copyNamed handle word
      | _ => .copyNamed handle word
    | none => .copyNamed handle word

mutual

/-- Reads a list of commands. Without `nested` it ends with the line; where it may be `bare`, there
need be no command in it. -/
def readList (nested bare : Bool) : Nat → Option Command → Read (Option Command)
  | 0, command => return command
  | fuel + 1, command => do
    let script := readList true true fuel none
    want true nested true
    let token ← readToken script fuel
    if token = .newline then
      readDocuments script fuel
      return command
    if token = .ending then
      readDocuments script fuel
      putBack
      return command
    putBack
    if nested ∧ bare ∧ token.endsList then return command
    let next ← readChain fuel
    let token ← readToken script fuel
    let next := if token = .ampersand then inBackground next else next
    let command := follow command next
    match token with
    | .ending =>
      readDocuments script fuel
      putBack
      return command
    | .newline =>
      putBack
      readList nested true fuel command
    | .ampersand | .semicolon => readList nested true fuel command
    | _ =>
      if ! nested then unexpected none
      putBack
      return command

/-- Reads a list in which there must be a command. At the end of the text there is none, which
whatever has to follow the list finds out. -/
def readBody : Nat → Read Command
  | 0 => unexpected none
  | fuel + 1 => return (← readList true false fuel none).getD (.simple 0 [] [] [])

/-- Reads pipelines of which each decides whether the next one runs. -/
def readChain : Nat → Read Command
  | 0 => unexpected none
  | fuel + 1 => do
    let first ← readPipeline fuel
    readLinks fuel first

/-- Reads the pipelines of a chain behind the first ones. -/
def readLinks : Nat → Command → Read Command
  | 0, first => return first
  | fuel + 1, first => do
    match ← readToken (readList true true fuel none) fuel with
    | .both =>
      want true true true
      readLinks fuel (.both first (← readPipeline fuel))
    | .either =>
      want true true true
      readLinks fuel (.either first (← readPipeline fuel))
    | _ =>
      putBack
      return first

/-- Reads a pipeline. -/
def readPipeline : Nat → Read Command
  | 0 => unexpected none
  | fuel + 1 => do
    let script := readList true true fuel none
    let negated := (← readToken script fuel) = .keyword "!"
    if negated then want true false true else putBack
    let first ← readCommand fuel
    let command ← (do
      if (← readToken script fuel) = .bar then
        return .pipe (first :: (← readStages fuel)) false
      putBack
      return first)
    return if negated then .negated command else command

/-- Reads the commands of a pipeline behind the first one. -/
def readStages : Nat → Read (List Command)
  | 0 => return []
  | fuel + 1 => do
    want true true true
    let command ← readCommand fuel
    if (← readToken (readList true true fuel none) fuel) = .bar then
      return command :: (← readStages fuel)
    putBack
    return [command]

/-- Reads a token that has to stand here. -/
def expect : Nat → Token → Read Unit
  | 0, _ => unexpected none
  | fuel + 1, token => do
    if (← readToken (readList true true fuel none) fuel) ≠ token then unexpected (some token)

/-- Reads what follows the condition of a branch. -/
def readBranch : Nat → Command → Read Command
  | 0, _ => unexpected none
  | fuel + 1, condition => do
    expect fuel (.keyword "then")
    let body ← readBody fuel
    match ← readToken (readList true true fuel none) fuel with
    | .keyword "elif" =>
      let next ← readBody fuel
      return .branch condition body (some (← readBranch fuel next))
    | .keyword "else" => return .branch condition body (some (← readBody fuel))
    | _ =>
      putBack
      return .branch condition body none

/-- Reads words up to the end of the list that a loop goes through. -/
def readWords : Nat → Read (List Word)
  | 0 => return []
  | fuel + 1 => do
    match ← readToken (readList true true fuel none) fuel with
    | .word =>
      let word := (← get).word
      return word :: (← readWords fuel)
    | .newline | .semicolon => return []
    | _ => unexpected none

/-- Reads a loop over words, past its first word. -/
def readEach (line : Nat) : Nat → Read Command
  | 0 => unexpected none
  | fuel + 1 => do
    let script := readList true true fuel none
    let token ← readToken script fuel
    let r ← get
    let name := if token = .word ∧ ! r.quoted then (plain? r.word).getD "" else ""
    if ! isName name then malformed "Bad for loop variable"
    want true true true
    let words ← (do
      match ← readToken script fuel with
      | .keyword "in" => readWords fuel
      | .semicolon => return [allArguments]
      | _ =>
        putBack
        return [allArguments])
    want true true true
    expect fuel (.keyword "do")
    let body ← readBody fuel
    expect fuel (.keyword "done")
    return .each line name words body

/-- Reads the patterns of a case. -/
def readPatterns : Nat → Read (List Word)
  | 0 => return []
  | fuel + 1 => do
    let script := readList true true fuel none
    let pattern := (← get).word
    if (← readToken script fuel) = .bar then
      let _ ← readToken script fuel
      return pattern :: (← readPatterns fuel)
    if (← get).token ≠ .closing then unexpected (some .closing)
    return [pattern]

/-- Reads the cases of a selection. -/
def readCases : Nat → Read (List (List Word × Option Command))
  | 0 => return []
  | fuel + 1 => do
    let script := readList true true fuel none
    want true true false
    let token ← readToken script fuel
    if token = .keyword "esac" then return []
    if token = .opening then
      let _ ← readToken script fuel
    let patterns ← readPatterns fuel
    let body ← readList true true fuel none
    want true true false
    let token ← readToken script fuel
    if token = .keyword "esac" then return [(patterns, body)]
    if token ≠ .caseEnd then unexpected (some .caseEnd)
    return (patterns, body) :: (← readCases fuel)

/-- Reads the word that a redirection names. -/
def readRedirect (handle : Nat) (what : Redirection) : Nat → Read Redirect
  | 0 => unexpected none
  | fuel + 1 => do
    let script := readList true true fuel none
    match what with
    | .document indented =>
      let token ← readPlainToken script true fuel
      modify fun r => { r with wanted := .nothing }
      if token ≠ .word then unexpected none
      let r ← get
      let pending : Pending := ⟨(lettersOf r.word).toList, indented, ! r.quoted⟩
      let text := r.known[r.asked]?.getD []
      set { r with waiting := r.waiting ++ [pending], asked := r.asked + 1 }
      return redirectOf handle what [] text
    | what =>
      if (← readToken script fuel) ≠ .word then unexpected none
      return redirectOf handle what (← get).word []

/-- Reads the redirections behind a compound command. -/
def readRedirects : Nat → Read (List Redirect)
  | 0 => return []
  | fuel + 1 => do
    want true false true
    match ← readToken (readList true true fuel none) fuel with
    | .redirect handle what =>
      let first ← readRedirect handle what fuel
      return first :: (← readRedirects fuel)
    | _ =>
      putBack
      return []

/-- Reads a command. -/
def readCommand : Nat → Read Command
  | 0 => unexpected none
  | fuel + 1 => do
    let line := (← get).line
    let token ← readToken (readList true true fuel none) fuel
    let compound ← match token with
      | .keyword "if" => do
        let condition ← readBody fuel
        let command ← readBranch fuel condition
        expect fuel (.keyword "fi")
        pure (some command)
      | .keyword "while" => pure (some (← readLoop false fuel))
      | .keyword "until" => pure (some (← readLoop true fuel))
      | .keyword "for" => pure (some (← readEach line fuel))
      | .keyword "case" => do
        let script := readList true true fuel none
        if (← readToken script fuel) ≠ .word then unexpected (some .word)
        let word := (← get).word
        want true true true
        expect fuel (.keyword "in")
        pure (some (.select line word (← readCases fuel)))
      | .opening => do
        let body ← readBody fuel
        expect fuel .closing
        pure (some (.subshell line body []))
      | .keyword "\x7b" => do
        let body ← readBody fuel
        expect fuel (.keyword "\x7d")
        pure (some body)
      | .word | .redirect _ _ => pure none
      | _ => unexpected none
    match compound with
    | none =>
      putBack
      let line := (← get).line
      readSimple line fuel true [] [] []
    | some command =>
      match ← readRedirects fuel, command with
      | [], command => return command
      | redirects, .subshell line body _ => return .subshell line body redirects
      | redirects, command => return .redirected line command redirects

/-- Reads a loop, past its first word. -/
def readLoop (whileFails : Bool) : Nat → Read Command
  | 0 => unexpected none
  | fuel + 1 => do
    let condition ← readBody fuel
    expect fuel (.keyword "do")
    let body ← readBody fuel
    expect fuel (.keyword "done")
    return .repeated whileFails condition body

/-- Reads a simple command or the definition of a function. What was read of it comes last to
first; aliases and assignments are looked for where `first` holds. -/
def readSimple (line : Nat) : Nat → Bool → List (String × Word) → List Word → List Redirect →
    Read Command
  | 0, _, assignments, words, redirects =>
    return .simple line assignments.reverse words.reverse redirects.reverse
  | fuel + 1, first, assignments, words, redirects => do
    let script := readList true true fuel none
    want false false first
    match ← readToken script fuel with
    | .word =>
      let word := (← get).word
      match first, assignment? word with
      | true, some assignment =>
        readSimple line fuel true (assignment :: assignments) words redirects
      | _, _ => readSimple line fuel false assignments (word :: words) redirects
    | .redirect handle what =>
      let redirect ← readRedirect handle what fuel
      readSimple line fuel first assignments words (redirect :: redirects)
    | .opening =>
      match assignments, words, redirects with
      | [], [word], [] =>
        expect fuel .closing
        let name := (plain? word).getD ""
        if ! isName name ∨ specialNames.contains name then malformed "Bad function name"
        want true true true
        return .define name (← readCommand fuel)
      | _, _, _ =>
        putBack
        return .simple line assignments.reverse words.reverse redirects.reverse
    | _ =>
      putBack
      return .simple line assignments.reverse words.reverse redirects.reverse

end

/-! ## Scripts -/

namespace Reading

/-- A text of which nothing is read. -/
def ofText (text : String) : Reading where
  rest := text.toList
  line := 1
  aliases := []
  inside := []
  again := false
  token := .newline
  word := []
  quoted := false
  wanted := .nothing
  waiting := []
  asked := 0
  found := #[]
  known := #[]

/-- The steps that are enough to read a text. -/
def steps (r : Reading) : Nat :=
  16 * (r.rest.length + 16)

/-- Reads the next list of commands, with the aliases known by now. There is none at the end of the
text. The text is read twice if it asks for here-documents: the first time shows what they are. -/
def next (r : Reading) (fuel : Nat) (aliases : List (String × String)) :
    Except Malformed (Option (Option Command) × Reading) := do
  let start := { r with
    aliases, again := false, wanted := .nothing, waiting := [], asked := 0, found := #[]
    known := #[], token := .newline }
  let list : Read (Option Command) := readList false false fuel none
  let (command, after) ← list start
  let (command, after) ← if after.found.isEmpty then pure (command, after)
    else list { start with known := after.found }
  match command, after.again && after.token = .ending with
  | none, true => return (none, after)
  | command, _ => return (some command, after)

/-- The parts of a text that is taken as a here-document is. -/
def document (text : String) : Except Malformed Word := do
  let r := ofText text
  let script : Read (Option Command) := readList true true r.steps none
  let ending : Pending := ⟨[aliasEnd], false, true⟩
  return ((← (readWord script false (some ending) .double r.steps).run r).1).word

/-- Nothing is left of the text. -/
def isOver (r : Reading) : Bool :=
  r.again && r.token = .ending

end Reading

end Anchored.Shell
