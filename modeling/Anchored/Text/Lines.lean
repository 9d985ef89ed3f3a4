import Anchored.Text.Blank
import Anchored.Text.Measure

/-!
# Lines of a text

A line ends at `\r\n`, at `\n` or at a lone `\r`. `lines` keeps the ending of every line, so that
the lines written one after another are the text again; `lineSpans` gives the byte ranges of their
texts. `rows` is the coarser division at line feeds alone, by which output is read and blocks are
counted.
-/

namespace Anchored.Text

/-- What ends a line. -/
inductive Ending where
  | crlf
  | lf
  | cr
  /-- The last line of a text that does not end with a terminator. -/
  | none
  deriving DecidableEq, Repr

/-- The characters of an ending. -/
def Ending.chars : Ending → List Char
  | .crlf => ['\r', '\n']
  | .lf => ['\n']
  | .cr => ['\r']
  | .none => []

/-- One line: its text, which holds no terminator, and what ends it. -/
structure Line where
  text : List Char
  ending : Ending
  deriving DecidableEq, Repr

/-- The line with a character put in front. -/
def Line.cons (c : Char) (l : Line) : Line :=
  { l with text := c :: l.text }

/-- The lines of a text. A text that ends with a terminator has no further empty line. -/
def lines : List Char → List Line
  | [] => []
  | '\r' :: '\n' :: r => ⟨[], .crlf⟩ :: lines r
  | c :: r =>
    if c = '\n' then ⟨[], .lf⟩ :: lines r
    else if c = '\r' then ⟨[], .cr⟩ :: lines r
    else match lines r with
      | [] => [⟨[c], .none⟩]
      | l :: ls => l.cons c :: ls

/-- The byte ranges of the texts of `ls`, the first of which starts at byte `start`. -/
def spansFrom (start : Nat) : List Line → List Span
  | [] => []
  | l :: ls =>
    let stop := start + byteSize l.text
    ⟨start, stop⟩ :: spansFrom (stop + byteSize l.ending.chars) ls

/-- The byte range of every line, without its terminator. -/
def lineSpans (t : List Char) : List Span :=
  spansFrom 0 (lines t)

/-- The offset just past the terminator that starts at byte `n`, and `n` itself where none
starts. -/
def terminatorEnd (t : List Char) (n : Nat) : Nat :=
  match splitAtByte? n t with
  | some (_, '\r' :: '\n' :: _) => n + 2
  | some (_, '\n' :: _) => n + 1
  | some (_, '\r' :: _) => n + 1
  | _ => n

/-- The text ends with a line feed or a carriage return. -/
def endsWithTerminator (t : List Char) : Bool :=
  t.getLast? == some '\n' || t.getLast? == some '\r'

/-- The text without one carriage return at its end. -/
def dropReturn (t : List Char) : List Char :=
  if t.getLast? = some '\r' then t.dropLast else t

/-- The pieces of a text between line feeds. A carriage return before a line feed goes with it,
and there is no empty piece after the last line feed. -/
def rows (t : List Char) : List (List Char) :=
  let pieces := splitWhere (· == '\n') t
  pieces.dropLast.map dropReturn ++ (pieces.getLast?.filter (! ·.isEmpty)).toList

/-- Lines that a change touches: those of the old block or of the new one, whichever has more. -/
def linesChanged (old new : List Char) : Nat :=
  max (rows old).length (rows new).length

end Anchored.Text
