import Anchored.Text.Blank

/-!
# The normal form of a text

Texts are compared without regard to tabs, line endings and blanks at the ends of lines by
comparing their normal forms. A normal form is never written to a file.
-/

namespace Anchored.Text

/-- Spaces that a tab stands for. -/
def tabWidth : Nat :=
  4

/-- A text with every tab made `tabWidth` spaces. -/
def expandTabs (t : List Char) : List Char :=
  t.flatMap fun c => if c = '\t' then List.replicate tabWidth ' ' else [c]

/-- A text with `\r\n` and every other `\r` made `\n`. -/
def unifyEndings : List Char → List Char
  | [] => []
  | '\r' :: '\n' :: r => '\n' :: unifyEndings r
  | c :: r => (if c = '\r' then '\n' else c) :: unifyEndings r

/-- A line with its tabs expanded and the blanks at its end removed. -/
def normalLine (line : List Char) : List Char :=
  trimEnd (expandTabs line)

/-- The normal lines of a text; there is an empty one after a final terminator. -/
def normalLines (t : List Char) : List (List Char) :=
  (splitWhere (· == '\n') (unifyEndings t)).map normalLine

/-- The normal form of a text: its normal lines with line feeds between them. -/
def normalize (t : List Char) : List Char :=
  ['\n'].intercalate (normalLines t)

end Anchored.Text
