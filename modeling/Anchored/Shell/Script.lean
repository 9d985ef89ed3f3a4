import Anchored.Shell.Raw

/-!
# Scripts

A script is a command, and most commands are built from others. A word of a command consists of
parts, some of which stand for a text that is only known when the command runs.
-/

namespace Anchored.Shell

/-- How the value of a parameter is used. -/
inductive Use where
  | value
  /-- The number of bytes of the value. -/
  | length
  /-- The word in place of a missing value. -/
  | otherwise
  /-- The word in place of a value. -/
  | instead
  /-- A missing value is an error, which the word describes. -/
  | required
  /-- A missing value is set to the word. -/
  | assigned
  /-- The value without what the word matches at its front or at its end, as much or as little of
  it as possible. -/
  | without (front longest : Bool)
  /-- No use that there is. -/
  | senseless
  deriving DecidableEq, Repr

/-- How a file is opened for a command. -/
inductive Access where
  | read
  | readWrite
  | append
  /-- From the start; a file that exists can be protected from that. -/
  | write
  /-- From the start, in any case. -/
  | overwrite
  deriving DecidableEq, Repr

mutual

/-- A part of a word. -/
inductive Part where
  | letter (c : Char) (quoted : Bool)
  /-- A quotation mark. It starts or ends a quotation. -/
  | mark
  /-- A parameter. What `orEmpty` says is whether an empty value is a missing one. -/
  | parameter (name : String) (use : Use) (orEmpty : Bool) (word : List Part)
  | arithmetic (expression : List Part)
  /-- What a script writes. -/
  | output (script : Option Command)

/-- What is done about an open file of a command. -/
inductive Redirect where
  | file (handle : Nat) (access : Access) (path : List Part)
  /-- The handle is another one's; or it is closed. -/
  | copy (handle : Nat) (source : Option Nat)
  /-- The handle is the one that the word names when the command runs. -/
  | copyNamed (handle : Nat) (source : List Part)
  /-- The handle reads a text. -/
  | document (handle : Nat) (text : List Part)

/-- A command. -/
inductive Command where
  /-- A program with its arguments, on a line. -/
  | simple (line : Nat) (assignments : List (String × List Part)) (words : List (List Part))
    (redirects : List Redirect)
  /-- Commands of which each reads what the one before writes. -/
  | pipe (commands : List Command) (background : Bool)
  | redirected (line : Nat) (body : Command) (redirects : List Redirect)
  /-- A command that cannot change anything in the shell around it. -/
  | subshell (line : Nat) (body : Command) (redirects : List Redirect)
  /-- A command that nobody waits for. -/
  | background (line : Nat) (body : Command) (redirects : List Redirect)
  | both (first second : Command)
  | either (first second : Command)
  | sequence (first second : Command)
  | negated (body : Command)
  | branch (condition body : Command) (otherwise : Option Command)
  /-- Runs the body as long as the condition succeeds, or as long as it fails. -/
  | repeated (whileFails : Bool) (condition body : Command)
  /-- Runs the body for every field of the words. -/
  | each (line : Nat) (name : String) (words : List (List Part)) (body : Command)
  /-- Runs the first body one of whose patterns matches the word. -/
  | select (line : Nat) (word : List Part) (cases : List (List (List Part) × Option Command))
  | define (name : String) (body : Command)

end

/-- A word. -/
abbrev Word := List Part

/-- The letters of a word that nothing in it is quoted or expanded in. -/
def plain? : Word → Option String
  | [] => some ""
  | .letter c false :: rest => (plain? rest).map fun s => c.toString ++ s
  | _ => none

/-- The letters of a word, without its quotation marks. -/
def lettersOf (word : Word) : String :=
  String.ofList (word.filterMap fun
    | .letter c _ => some c
    | _ => none)

/-- The name and the value of a word that looks like an assignment. -/
def assignment? (word : Word) : Option (String × Word) :=
  let isNameLetter : Part → Bool
    | .letter c false => inName c
    | _ => false
  let name := (plain? (word.takeWhile isNameLetter)).getD ""
  match word.dropWhile isNameLetter with
  | .letter '=' false :: value => if isName name then some (name, value) else none
  | _ => none

end Anchored.Shell
