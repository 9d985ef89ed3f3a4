import Anchored.Json.Cursor
import Anchored.Text.Measure

/-!
# Reading strings
-/

namespace Anchored.Json

/-- The value of a hexadecimal digit. -/
def hexValue? (c : Char) : Option Nat :=
  if c.isDigit then some (c.toNat - '0'.toNat)
  else if 'a' ≤ c ∧ c ≤ 'f' then some (c.toNat - 'a'.toNat + 10)
  else if 'A' ≤ c ∧ c ≤ 'F' then some (c.toNat - 'A'.toNat + 10)
  else none

/-- Reads the four digits of an escape. -/
def readHex (c : Cursor) : Except Error (Nat × Cursor) :=
  let next := c.rest.take 4
  match next.mapM hexValue? with
  | some [a, b, d, e] => .ok (((a * 16 + b) * 16 + d) * 16 + e, c.drop 4)
  | _ =>
    if Text.byteSize next < 4 then c.failAfter 4 .eofString
    else c.failAfter 4 .invalidEscape

/-- The unit is the first of a pair. -/
def isLeading (n : Nat) : Bool :=
  0xD800 ≤ n && n ≤ 0xDBFF

/-- The unit is the second of a pair. -/
def isTrailing (n : Nat) : Bool :=
  0xDC00 ≤ n && n ≤ 0xDFFF

/-- Takes the expected character of a pair's second escape. -/
def expectPair (c : Cursor) (x : Char) : Except Error Cursor :=
  match c.peek? with
  | none => c.fail .eofString
  | some y => if y = x then .ok c.skip else c.failPeek .unexpectedHexEnd

/-- Reads the digits of a Unicode escape, and the second escape of a pair. -/
def readUnicode (c : Cursor) : Except Error (Char × Cursor) := do
  let (n, c) ← readHex c
  if isTrailing n then c.fail .loneSurrogate
  else if isLeading n then
    let c ← expectPair c '\\'
    let c ← expectPair c 'u'
    let (n2, c) ← readHex c
    if isTrailing n2 then
      return (Char.ofNat (0x10000 + (n - 0xD800) * 0x400 + (n2 - 0xDC00)), c)
    else c.fail .loneSurrogate
  else return (Char.ofNat n, c)

/-- The character that a one-letter escape stands for. -/
def simpleEscape? : Char → Option Char
  | '"' => some '"'
  | '\\' => some '\\'
  | '/' => some '/'
  | 'b' => some '\x08'
  | 'f' => some '\x0c'
  | 'n' => some '\n'
  | 'r' => some '\r'
  | 't' => some '\t'
  | _ => none

/-- The character may not stand in a string as itself. -/
def isControl (x : Char) : Bool :=
  x.toNat < 0x20

/-- Reads the rest of a string, past its opening quote and the characters in `acc`, which come last
to first. Without `strict` escapes are only passed over: what they stand for does not matter. Then a
control character is noted in front of it, else behind it. -/
def readStringFrom (strict : Bool) (fuel : Nat) (acc : List Char) (c : Cursor) :
    Except Error (List Char × Cursor) :=
  match fuel with
  | 0 => c.fail .eofString
  | fuel + 1 =>
    match c.rest with
    | [] => c.fail .eofString
    | '"' :: _ => .ok (acc.reverse, c.skip)
    | '\\' :: _ =>
      let c := c.skip
      match c.peek? with
      | none => c.fail .eofString
      | some 'u' => do
        if strict then
          let (x, c) ← readUnicode c.skip
          readStringFrom strict fuel (x :: acc) c
        else
          let (_, c) ← readHex c.skip
          readStringFrom strict fuel acc c
      | some x =>
        match simpleEscape? x with
        | some y => readStringFrom strict fuel (y :: acc) c.skip
        | none => c.failPeek .invalidEscape
    | x :: _ =>
      if isControl x then
        if strict then c.failPeek .controlCharacter else c.fail .controlCharacter
      else readStringFrom strict fuel (x :: acc) c.skip

/-- Reads the rest of a string, past its opening quote. -/
def readString (c : Cursor) : Except Error (String × Cursor) := do
  let (s, c) ← readStringFrom true (c.rest.length + 1) [] c
  return (String.ofList s, c)

/-- Passes over the rest of a string, past its opening quote. -/
def skipString (c : Cursor) : Except Error Cursor :=
  (·.2) <$> readStringFrom false (c.rest.length + 1) [] c

end Anchored.Json
