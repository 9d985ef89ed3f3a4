import Anchored.Json.Error

/-!
# Where a reader stands

A cursor is the text not yet read, with the line and the bytes of the line read so far. Errors are
placed at the cursor, or one byte further, past the character that was looked at and not taken.
-/

namespace Anchored.Json

/-- What is left of a text, and where it starts. -/
structure Cursor where
  rest : List Char
  line : Nat
  column : Nat
  deriving DecidableEq, Repr

namespace Cursor

/-- The start of a text. -/
def start (text : List Char) : Cursor :=
  ⟨text, 1, 0⟩

/-- The cursor with the first character taken. -/
def skip (c : Cursor) : Cursor :=
  match c.rest with
  | [] => c
  | '\n' :: r => ⟨r, c.line + 1, 0⟩
  | x :: r => ⟨r, c.line, c.column + x.utf8Size⟩

/-- The cursor with `n` characters taken. -/
def drop (n : Nat) (c : Cursor) : Cursor :=
  match n with
  | 0 => c
  | n + 1 => drop n c.skip

/-- The place `n` bytes on. -/
def lookAhead (c : Cursor) : Nat → List Char → Nat × Nat
  | 0, _ => (c.line, c.column)
  | _, [] => (c.line, c.column)
  | n, x :: r =>
    if n < x.utf8Size then (c.line, c.column + n)
    else if x = '\n' then lookAhead ⟨r, c.line + 1, 0⟩ (n - 1) r
    else lookAhead ⟨r, c.line, c.column + x.utf8Size⟩ (n - x.utf8Size) r

/-- An error at the cursor. -/
def fail (c : Cursor) (cause : Cause) : Except Error α :=
  .error ⟨cause, c.line, c.column⟩

/-- An error `n` bytes past the cursor. -/
def failAfter (c : Cursor) (n : Nat) (cause : Cause) : Except Error α :=
  let (line, column) := c.lookAhead n c.rest
  .error ⟨cause, line, column⟩

/-- An error at the character that was looked at. -/
def failPeek (c : Cursor) (cause : Cause) : Except Error α :=
  c.failAfter 1 cause

/-- A mismatch at the cursor. -/
def failMismatch (c : Cursor) (m : Mismatch) : Except Error α :=
  c.fail (.mismatch m)

/-- The character is white space between tokens. -/
def isSpace (x : Char) : Bool :=
  x == ' ' || x == '\n' || x == '\t' || x == '\r'

/-- The cursor past the white space at it. -/
def skipSpaceFrom (c : Cursor) : List Char → Cursor
  | [] => c
  | x :: r => if isSpace x then skipSpaceFrom c.skip r else c

/-- The cursor past the white space at it. -/
def skipSpace (c : Cursor) : Cursor :=
  c.skipSpaceFrom c.rest

/-- The next character. -/
def peek? (c : Cursor) : Option Char :=
  c.rest.head?

end Cursor

end Anchored.Json
