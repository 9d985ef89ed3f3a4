import Anchored.Bracket.Segment

/-!
# Balance of brackets

Reads the brackets in the code of a text with a stack of those still open. The first closing
bracket that does not fit is reported, or else the innermost bracket that is never closed.
-/

namespace Anchored.Bracket

/-- An opening bracket that waits for its closing one. -/
structure Opening where
  bracket : Char
  line : Nat
  deriving DecidableEq, Repr

/-- How brackets fail to balance. -/
inductive Imbalance where
  /-- A closing bracket of another kind than the innermost open one. -/
  | mismatched (closer : Char) (line : Nat) (opening : Opening)
  /-- A closing bracket where none is open. -/
  | unmatched (closer : Char) (line : Nat)
  /-- The innermost bracket that the text leaves open. -/
  | unclosed (opening : Opening)
  deriving DecidableEq, Repr

/-- The text of an imbalance. -/
def Imbalance.message : Imbalance → String
  | .mismatched closer line opening =>
    "line " ++ toString line ++ ": mismatched '" ++ closer.toString ++
      "', expected closer for '" ++ opening.bracket.toString ++ "' opened on line " ++
      toString opening.line
  | .unmatched closer line =>
    "line " ++ toString line ++ ": unmatched closing '" ++ closer.toString ++ "'"
  | .unclosed opening =>
    "line " ++ toString opening.line ++ ": unclosed '" ++ opening.bracket.toString ++ "'"

/-- The opening bracket that a closing bracket fits. -/
def openerOf? : Char → Option Char
  | ')' => some '('
  | ']' => some '['
  | '\x7d' => some '\x7b'
  | _ => none

/-- The character opens a bracket. -/
def isOpener (c : Char) : Bool :=
  c == '(' || c == '[' || c == '\x7b'

/-- The stack after one character of code on a line. -/
def step (line : Nat) (stack : List Opening) (c : Char) : Except Imbalance (List Opening) :=
  if isOpener c then .ok (⟨c, line⟩ :: stack)
  else match openerOf? c with
    | none => .ok stack
    | some opener =>
      match stack with
      | [] => .error (.unmatched c line)
      | top :: rest =>
        if top.bracket = opener then .ok rest else .error (.mismatched c line top)

/-- Lines that a segment takes the count further. The line feeds of character literals are not
counted. -/
def Segment.linesPassed (s : Segment) : Nat :=
  if s.kind = .character then 0 else s.text.count '\n'

/-- Reads segments, the first of which starts on a line, with some brackets open. -/
def balance (line : Nat) (stack : List Opening) : List Segment → Except Imbalance Unit
  | [] =>
    match stack with
    | [] => .ok ()
    | top :: _ => .error (.unclosed top)
  | s :: rest => do
    let stack ← if s.kind = .code then s.text.foldlM (step line) stack else .ok stack
    balance (line + s.linesPassed) stack rest

/-- The brackets in the code of a text balance. -/
def check (language : Language) (content : List Char) : Except Imbalance Unit :=
  balance 1 [] (segments (.ofLanguage language) content)

end Anchored.Bracket
