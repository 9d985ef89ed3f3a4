/-!
# Places in a text

Offsets and sizes count the bytes of the UTF-8 form, while texts are lists of characters; this
module holds what ties the two together. A span is a pair of offsets, a position a line and a
column.
-/

namespace Anchored.Text

/-- Bytes that a text takes in UTF-8. -/
def byteSize : List Char → Nat
  | [] => 0
  | c :: r => c.utf8Size + byteSize r

/-- The text before and after byte `n`, if that byte starts a character or ends the text. -/
def splitAtByte? : Nat → List Char → Option (List Char × List Char)
  | 0, t => some ([], t)
  | _ + 1, [] => none
  | n + 1, c :: r =>
    if c.utf8Size ≤ n + 1 then
      (splitAtByte? (n + 1 - c.utf8Size) r).map fun (before, after) => (c :: before, after)
    else none

/-- The characters that lie wholly within the first `n` bytes. -/
def takeBytes : Nat → List Char → List Char
  | _, [] => []
  | n, c :: r => if c.utf8Size ≤ n then c :: takeBytes (n - c.utf8Size) r else []

end Anchored.Text

namespace Anchored

/-- A range of bytes of a text. -/
structure Span where
  /-- Offset of the first byte. -/
  start : Nat
  /-- Offset just past the last byte. -/
  stop : Nat
  deriving DecidableEq, Repr

namespace Span

/-- Bytes in the span. -/
def size (s : Span) : Nat :=
  s.stop - s.start

/-- No byte lies in the span. -/
def isEmpty (s : Span) : Bool :=
  s.stop == s.start

/-- The text before, in and after a span, if it runs forwards, lies within the text and cuts no
character. -/
def cut? (s : Span) (t : List Char) : Option (List Char × List Char × List Char) := do
  if s.stop < s.start then none else
  let (before, rest) ← Text.splitAtByte? s.start t
  let (covered, after) ← Text.splitAtByte? (s.stop - s.start) rest
  return (before, covered, after)

/-- The text in a span, where `cut?` finds one. -/
def text? (s : Span) (t : List Char) : Option (List Char) :=
  (s.cut? t).map fun (_, covered, _) => covered

end Span

/-- A place in a text as a reader names it; both numbers start at one and the column counts
bytes. -/
structure Position where
  /-- Number of the line. -/
  line : Nat
  /-- Byte of the line. -/
  column : Nat
  deriving DecidableEq, Repr

namespace Position

/-- The position `n` bytes further on in `t`. A byte within a character counts like any other,
only a line feed starts a line, and there is nothing past the end of the text. -/
def advance (p : Position) : Nat → List Char → Position
  | _, [] => p
  | n, c :: r =>
    if n < c.utf8Size then ⟨p.line, p.column + n⟩
    else if c = '\n' then (Position.mk (p.line + 1) 1).advance (n - 1) r
    else (Position.mk p.line (p.column + c.utf8Size)).advance (n - c.utf8Size) r

/-- The position of byte `n` of a text; an offset past the end is taken as the end. -/
def ofByte (t : List Char) (n : Nat) : Position :=
  (Position.mk 1 1).advance n t

end Position

end Anchored
