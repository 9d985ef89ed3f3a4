import Anchored.Json.Cursor

/-!
# Reading numbers

Whole numbers that fit 64 bits are kept exactly. All others become doubles: the digits are
gathered into a 64-bit significand as long as they fit, further ones only count towards the
exponent, and the significand is multiplied or divided by a power of ten. The result may differ
from the nearest double in its last bits.
-/

namespace Anchored.Json

namespace Cursor

/-- The digit at the cursor. -/
def digit? (c : Cursor) : Option Nat :=
  match c.rest with
  | x :: _ => if x.isDigit then some (x.toNat - '0'.toNat) else none
  | [] => none

/-- The next character is one of `xs`. -/
def nextIn (c : Cursor) (xs : List Char) : Bool :=
  c.rest.head?.any xs.contains

/-- The digits at the cursor, and the cursor past them. -/
def digits (c : Cursor) : List Char × Cursor :=
  let ds := c.rest.takeWhile Char.isDigit
  (ds, ⟨c.rest.drop ds.length, c.line, c.column + ds.length⟩)

end Cursor

/-- The value of a list of decimal digits. -/
def digitsValue (ds : List Char) : Nat :=
  ds.foldl (fun n d => 10 * n + (d.toNat - '0'.toNat)) 0

/-- The largest number of 64 bits. -/
def maxNatural : Nat :=
  Nat.pow 2 64 - 1

/-- The largest exponent that is told apart from greater ones. -/
def maxExponent : Nat :=
  Nat.pow 2 31 - 1

/-- Gathers digits into a significand as long as it fits 64 bits. Returns the significand, how many
digits went into it, and the digits left over. -/
def gather (significand : Nat) : List Char → Nat × Nat × List Char
  | [] => (significand, 0, [])
  | d :: ds =>
    let next := 10 * significand + (d.toNat - '0'.toNat)
    if maxNatural < next then (significand, 0, d :: ds)
    else let (s, n, left) := gather next ds; (s, n + 1, left)

/-- A power of ten as a double. -/
def powerOfTen (n : Nat) : Float :=
  Float.ofScientific 1 false n

/-- `f` times a power of ten, in steps that a double can hold; `none` where the result is too
large. -/
def scaleByTen (f : Float) (exponent : Int) : Option Float :=
  if exponent.natAbs ≤ 308 then
    if 0 ≤ exponent then
      let r := f * powerOfTen exponent.toNat
      if r.isInf then none else some r
    else some (f / powerOfTen exponent.natAbs)
  else if f == 0 then some f
  else if 0 ≤ exponent then none
  else scaleByTen (f / powerOfTen 308) (exponent + 308)
termination_by exponent.natAbs
decreasing_by omega

/-- The double of a significand and an exponent, with its sign. -/
def double (c : Cursor) (positive : Bool) (significand : Nat) (exponent : Int) :
    Except Error (Number × Cursor) :=
  match scaleByTen (UInt64.ofNat significand).toFloat exponent with
  | none => c.fail .outOfRange
  | some f => .ok (.double (if positive then f else -f).toBits, c)

/-- Reads the exponent at the cursor, which stands at its letter. -/
def readExponent (c : Cursor) (positive : Bool) (significand : Nat) (exponent : Int) :
    Except Error (Number × Cursor) :=
  let c := c.skip
  let negative := c.nextIn ['-']
  let c := if c.nextIn ['+', '-'] then c.skip else c
  match c.peek?, c.digit? with
  | none, _ => c.fail .eofValue
  | some _, none => c.failPeek .invalidNumber
  | some _, some _ =>
    let (ds, after) := c.digits
    let upTo := (List.range ds.length).find? fun n => maxExponent < digitsValue (ds.take (n + 1))
    match upTo with
    | some n =>
      if significand ≠ 0 ∧ ¬ negative then (c.drop (n + 1)).fail .outOfRange
      else .ok (.double (if positive then (0.0 : Float) else -0.0).toBits, after)
    | none =>
      let e : Int := digitsValue ds
      double after positive significand (if negative then exponent - e else exponent + e)

/-- Reads the fraction at the cursor, which stands at the point. -/
def readFraction (c : Cursor) (positive : Bool) (significand : Nat) (exponent : Int) :
    Except Error (Number × Cursor) :=
  let c := c.skip
  let (ds, after) := c.digits
  let (significand, used, _) := gather significand ds
  if ds.isEmpty then
    match c.peek? with
    | some _ => c.failPeek .invalidNumber
    | none => c.fail .eofValue
  else
    let exponent := exponent - used
    if after.nextIn ['e', 'E'] then readExponent after positive significand exponent
    else double after positive significand exponent

/-- Reads a number without its sign. -/
def readNumber (c : Cursor) (positive : Bool) : Except Error (Number × Cursor) :=
  match c.peek?, c.digit? with
  | none, _ => c.fail .eofValue
  | some _, none => c.failPeek .invalidNumber
  | some _, some 0 =>
    let c := c.skip
    if c.digit?.isSome then c.failPeek .invalidNumber else finish c 0
  | some _, some _ =>
    let (ds, after) := c.digits
    let (significand, _, left) := gather 0 ds
    if left.isEmpty then finish after significand
    else fractional after significand left.length
where
  /-- What may follow the digits of a number that has become a double. -/
  fractional (c : Cursor) (significand : Nat) (exponent : Int) : Except Error (Number × Cursor) :=
    if c.nextIn ['.'] then readFraction c positive significand exponent
    else if c.nextIn ['e', 'E'] then readExponent c positive significand exponent
    else double c positive significand exponent
  /-- What may follow digits that fit 64 bits. -/
  finish (c : Cursor) (significand : Nat) : Except Error (Number × Cursor) :=
    if c.nextIn ['.', 'e', 'E'] then fractional c significand 0
    else if positive then .ok (.natural significand, c)
    else if significand = 0 ∨ Nat.pow 2 63 < significand then
      .ok (.double (-(UInt64.ofNat significand).toFloat).toBits, c)
    else .ok (.negative (-significand), c)

end Anchored.Json
