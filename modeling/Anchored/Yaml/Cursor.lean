import Anchored.Yaml.Malformed

/-!
# Where a scan of a YAML text stands
-/

namespace Anchored.Yaml

/-- The text not yet scanned, and the place where it starts. -/
structure Cursor where
  rest : List Char
  mark : Mark
  /-- The characters of the whole text. -/
  size : Nat
  deriving DecidableEq, Repr

/-- The byte order mark. -/
def byteOrderMark : Char :=
  '\ufeff'

/-- The character may stand in a YAML text. -/
def isAllowed (c : Char) : Bool :=
  let n := c.toNat
  n == 0x09 || n == 0x0A || n == 0x0D || (0x20 ≤ n && n ≤ 0x7E) || n == 0x85 ||
    (0xA0 ≤ n && n ≤ 0xD7FF) || (0xE000 ≤ n && n ≤ 0xFFFD) || 0x10000 ≤ n

/-- The offset of the first byte of a character that may not stand in a YAML text, if the text
starts at byte `offset`. -/
def firstForbidden? (offset : Nat) : List Char → Option Nat
  | [] => none
  | c :: r => if isAllowed c then firstForbidden? (offset + c.utf8Size) r else some offset

/-- The character ends a line. -/
def isBreak (c : Char) : Bool :=
  c == '\r' || c == '\n' || c == '\x85' || c == '\u2028' || c == '\u2029'

/-- The character is a space or a tab. -/
def isBlank (c : Char) : Bool :=
  c == ' ' || c == '\t'

/-- The character may stand in the name of an anchor, a handle or a directive. -/
def isNameChar (c : Char) : Bool :=
  c.isAlphanum || c == '_' || c == '-'

namespace Cursor

/-- The start of a text. A byte order mark in front does not count. -/
def start (text : List Char) : Except Malformed Cursor :=
  let (text, offset) := match text with
    | c :: r => if c = byteOrderMark then (r, c.utf8Size) else (text, 0)
    | [] => (text, 0)
  match firstForbidden? offset text with
  | some offset => .error (.control offset)
  | none => .ok ⟨text, Mark.start, text.length⟩

/-- The number of characters not yet scanned. -/
def left (c : Cursor) : Nat :=
  c.size - c.mark.index

/-- The character `n` places on. -/
def at? (c : Cursor) (n : Nat) : Option Char :=
  c.rest[n]?

/-- The next character is `x`. -/
def next (c : Cursor) (x : Char) : Bool :=
  c.rest.head? == some x

/-- The next character is one of `xs`. -/
def nextIn (c : Cursor) (xs : List Char) : Bool :=
  c.rest.head?.any xs.contains

/-- The next character satisfies `p`. -/
def nextIs (c : Cursor) (p : Char → Bool) : Bool :=
  c.rest.head?.any p

/-- The text ends here. -/
def atEnd (c : Cursor) : Bool :=
  c.rest.isEmpty

/-- The character `n` places on is a blank or a break, or there is none. -/
def blankAt (c : Cursor) (n : Nat) : Bool :=
  (c.at? n).all fun x => isBlank x || isBreak x

/-- The next character is a break, or there is none. -/
def breakNext (c : Cursor) : Bool :=
  c.rest.head?.all isBreak

/-- The cursor past the next character, which does not end a line. -/
def skip (c : Cursor) : Cursor :=
  { c with rest := c.rest.tail, mark := ⟨c.mark.index + 1, c.mark.line, c.mark.column + 1⟩ }

/-- The cursor past `n` characters, none of which ends a line. -/
def drop (c : Cursor) (n : Nat) : Cursor :=
  { c with rest := c.rest.drop n, mark := ⟨c.mark.index + n, c.mark.line, c.mark.column + n⟩ }

/-- The cursor past the next line break, if there is one. -/
def skipBreak (c : Cursor) : Cursor :=
  match c.rest with
  | '\r' :: '\n' :: r => { c with rest := r, mark := ⟨c.mark.index + 2, c.mark.line + 1, 0⟩ }
  | x :: r =>
    if isBreak x then { c with rest := r, mark := ⟨c.mark.index + 1, c.mark.line + 1, 0⟩ } else c
  | [] => c

/-- What the next line break stands for in a scalar: a line feed, unless it is a line or paragraph
separator. -/
def breakText (c : Cursor) : List Char :=
  match c.rest with
  | x :: _ => if x == '\u2028' || x == '\u2029' then [x] else if isBreak x then ['\n'] else []
  | [] => []

/-- The characters up to the first that does not satisfy `p`, none of which ends a line. -/
def takeWhile (c : Cursor) (p : Char → Bool) : List Char :=
  c.rest.takeWhile p

/-- The cursor past the characters that satisfy `p`, none of which ends a line. -/
def skipWhile (c : Cursor) (p : Char → Bool) : Cursor :=
  c.drop (c.takeWhile p).length

/-- The cursor past the spaces and tabs. -/
def skipBlanks (c : Cursor) : Cursor :=
  c.skipWhile isBlank

/-- The cursor past a comment. -/
def skipComment (c : Cursor) : Cursor :=
  if c.next '#' then c.skipWhile (! isBreak ·) else c

/-- A document's start or end stands at the beginning of this line. -/
def atDocumentMark (c : Cursor) (dashes : List Char) : Bool :=
  c.mark.column == 0 && dashes.isPrefixOf c.rest && c.blankAt 3

/-- The three characters that start a document. -/
def startMark : List Char :=
  ['-', '-', '-']

/-- The three characters that end a document. -/
def endMark : List Char :=
  ['.', '.', '.']

/-- A problem at the cursor, met while reading what started at `started`. -/
def fail (c : Cursor) (problem : Problem) (context : Context) (started : Mark) :
    Except Malformed α :=
  .error (.found problem c.mark (some (context, started)))

/-- A problem at the cursor. -/
def failHere (c : Cursor) (problem : Problem) : Except Malformed α :=
  .error (.found problem c.mark none)

end Cursor

end Anchored.Yaml
