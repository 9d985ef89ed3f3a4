import Anchored.Shell.Arithmetic

/-!
# Conditions

A condition is a list of words: operators in front of a word or between two, joined by others. What
a word is depends on those behind it, so that a word that looks like an operator can be an operand.
-/

namespace Anchored.Shell

/-- What a word of a condition can be. -/
inductive Operation where
  | unary
  | binary
  | negation
  | both
  | either
  | opening
  | closing
  deriving DecidableEq, Repr

/-- What a word is if it is no operand. -/
def operation? (word : String) : Option Operation :=
  if ["-r", "-w", "-x", "-e", "-f", "-d", "-c", "-b", "-p", "-u", "-g", "-k", "-s", "-t", "-z",
      "-n", "-h", "-O", "-G", "-L", "-S"].contains word then some .unary
  else if ["=", "!=", "<", ">", "-eq", "-ne", "-ge", "-gt", "-le", "-lt", "-nt", "-ot",
      "-ef"].contains word then some .binary
  else
    match word with
    | "!" => some .negation
    | "-a" => some .both
    | "-o" => some .either
    | "(" => some .opening
    | ")" => some .closing
    | _ => none

/-- What the word at a place is: nothing behind the last word, and otherwise what it is as an
operator, if it is one. -/
def operationAt (words : Array String) (i : Nat) : Option (Option Operation) := do
  let word ← words[i]?
  match operation? word with
  | some .unary =>
    match words[i + 1]?, words[i + 2]? with
    | none, _ => some none
    | some _, none => some (some .unary)
    | some next, some _ =>
      if operation? next = some .binary then some none else some (some .unary)
  | some .opening => if i + 1 < words.size then some (some .opening) else some none
  | other => some other

/-- Whether a test of the file at a path holds. -/
def Machine.testFile (m : Machine) (op path : String) : Bool :=
  let there := m.node? path
  let device := device? path
  let isFile := match there with
    | some (.file _) => true
    | _ => false
  let isDirectory := there.isSome && ! isFile
  match op with
  | "-e" | "-r" | "-w" | "-O" | "-G" => there.isSome || device.isSome
  | "-f" => isFile
  | "-d" => isDirectory
  | "-x" => isDirectory
  | "-s" => match there with
    | some (.file bytes) => bytes.size ≠ 0
    | some .directory => true
    | none => false
  | "-c" => device.isSome
  | _ => false

/-- Whether a test of two files holds. All files are of the same age. -/
def Machine.sameFile (m : Machine) (op a b : String) : Bool :=
  match op, m.place a, m.place b with
  | "-ef", .ok a, .ok b => a = b && (m.store.node a).isSome
  | _, _, _ => false

/-- Decides a condition, at a place in its words. -/
abbrev Decide := StateT Nat ShellM

namespace Decide

/-- The condition makes no sense because of a word. -/
def complain (word what : String) : Decide α :=
  fail (if word = "" then what else word ++ ": " ++ what)

/-- Goes on by some words and tells what is there. -/
def advance (words : Array String) (n : Nat) : Decide (Option (Option Operation)) := do
  modify (· + n)
  return operationAt words (← get)

/-- Whether an operator between two words holds. -/
def binary (words : Array String) : Decide Bool := do
  let i ← get
  let a := words[i]?.getD ""
  let op := words[i + 1]?.getD ""
  match words[i + 2]? with
  | none => complain op "argument expected"
  | some b =>
    set (i + 2)
    let numbers (holds : Int → Int → Bool) : Decide Bool := do
      let m ← number true a
      let n ← number true b
      return holds m n
    match op with
    | "=" => return a == b
    | "!=" => return a != b
    | "<" => return a < b
    | ">" => return b < a
    | "-eq" => numbers (· == ·)
    | "-ne" => numbers (· != ·)
    | "-lt" => numbers fun m n => m < n
    | "-le" => numbers fun m n => m ≤ n
    | "-gt" => numbers fun m n => n < m
    | "-ge" => numbers fun m n => n ≤ m
    | op => return (← getThe Machine).sameFile op a b

mutual

/-- Decides a condition without operators that join. -/
def primary (words : Array String) : Nat → Option (Option Operation) → Decide Bool
  | 0, _ => return false
  | _, none => return false
  | fuel + 1, some token => do
    match token with
    | some .opening =>
      let next ← advance words 1
      if next = some (some .closing) then return false
      let holds ← either words fuel next
      if (← advance words 1) ≠ some (some .closing) then complain "" "closing paren expected"
      return holds
    | some .unary =>
      let op := words[(← get)]?.getD ""
      modify (· + 1)
      match words[(← get)]? with
      | none => complain op "argument expected"
      | some word =>
        match op with
        | "-z" => return word == ""
        | "-n" => return word != ""
        | "-t" =>
          let _ ← number true word
          return false
        | op => return (← getThe Machine).testFile op word
    | _ =>
      let i ← get
      if operationAt words (i + 1) = some (some .binary) then binary words
      else return words[i]?.getD "" != ""

/-- Decides a condition that may be negated. -/
def negated (words : Array String) : Nat → Option (Option Operation) → Decide Bool
  | 0, _ => return false
  | fuel + 1, token => do
    if token ≠ some (some .negation) then return ← primary words fuel token
    let next := operationAt words ((← get) + 1)
    if next.isSome then modify (· + 1)
    return ! (← negated words fuel next)

/-- Decides conditions that have to hold together. -/
def both (words : Array String) : Nat → Option (Option Operation) → Decide Bool
  | 0, _ => return false
  | fuel + 1, token => do
    let first ← negated words fuel token
    if operationAt words ((← get) + 1) = some (some .both) then
      let rest ← both words fuel (← advance words 2)
      return first && rest
    return first

/-- Decides conditions of which one has to hold. -/
def either (words : Array String) : Nat → Option (Option Operation) → Decide Bool
  | 0, _ => return false
  | fuel + 1, token => do
    let first ← both words fuel token
    if operationAt words ((← get) + 1) = some (some .either) then
      let rest ← either words fuel (← advance words 2)
      return first || rest
    return first

end

/-- Decides the words of a condition, the first of which is `token`. -/
def whole (list : List String) (token : Option (Option Operation)) : ShellM Bool := do
  let array := list.toArray
  let (holds, i) ← (either array (8 * (array.size + 2)) token).run 0
  match array[i]?, array[i + 1]? with
  | some word, some _ => (complain word "unexpected operator").run' i
  | _, _ => return holds

/-- Decides the words of a condition. In front of few words, any number of negations is one. -/
def words (negates : Bool) : List String → ShellM Bool
  | [] => return negates
  | first :: rest => do
    let list := first :: rest
    let holds : ShellM Bool := do
      return (← whole list (operationAt list.toArray 0)) != negates
    let short : ShellM Bool := do
      if first = "(" ∧ rest.getLast? = some ")" then
        return (← whole rest.dropLast (operationAt rest.dropLast.toArray 0)) != negates
      else if first = "!" then words true rest
      else holds
    match rest with
    | [op, _] =>
      if operation? op = some .binary then return (← whole list (some none)) != negates
      else short
    | [_, _, _] => short
    | _ => holds

end Decide

end Anchored.Shell
