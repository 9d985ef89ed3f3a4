import Anchored.Decimal.Written
import Anchored.Yaml.Token.Basic

/-!
# What a scalar stands for

A plain scalar stands for null, a truth value or a number if it is written like one, and for a text
otherwise; quoted and block scalars are always texts. A tag of the core schema makes the scalar
what the tag says, or is an error.
-/

namespace Anchored.Yaml

/-- A number: whole, or a double given by its bits. -/
inductive Number where
  | whole (n : Int)
  | double (bits : UInt64)
  deriving DecidableEq, Repr

/-- Equal numbers of one kind. All that is no number is one, and so are both zeros. -/
def Number.same : Number → Number → Bool
  | .whole a, .whole b => a == b
  | .double a, .double b =>
    let x := Float.ofBits a
    let y := Float.ofBits b
    x == y || (x.isNaN && y.isNaN)
  | _, _ => false

/-- How doubles are written: exponents have no plus sign. -/
def doubleLayout : Decimal.Layout :=
  ⟨[]⟩

/-- The written form of a number. -/
def Number.message : Number → String
  | .whole n => toString n
  | .double bits =>
    let x := Float.ofBits bits
    if x.isNaN then ".nan"
    else if x.isInf then if x < 0 then "-.inf" else ".inf"
    else doubleLayout.write bits

/-- What a scalar stands for. -/
inductive Plain where
  | null
  | bool (b : Bool)
  | number (n : Number)
  | text (s : List Char)
  /-- A whole number of more than 64 bits. -/
  | wide (n : Int)
  deriving DecidableEq, Repr

/-! ## Recognising plain scalars -/

/-- The scalar is written like null. -/
def isNull (s : List Char) : Bool :=
  ["null", "Null", "NULL", "~"].contains (String.ofList s)

/-- The truth value that a scalar is written like. -/
def bool? (s : List Char) : Option Bool :=
  if ["true", "True", "TRUE"].contains (String.ofList s) then some true
  else if ["false", "False", "FALSE"].contains (String.ofList s) then some false
  else none

/-- The value of a digit in a base of at most sixteen. -/
def digitIn? (base : Nat) (c : Char) : Option Nat :=
  let value :=
    if c.isDigit then some (c.toNat - '0'.toNat)
    else if 'a' ≤ c ∧ c ≤ 'f' then some (c.toNat - 'a'.toNat + 10)
    else if 'A' ≤ c ∧ c ≤ 'F' then some (c.toNat - 'A'.toNat + 10)
    else none
  value.filter (· < base)

/-- The number that digits of a base stand for. -/
def natural? (base : Nat) (s : List Char) : Option Nat :=
  if s.isEmpty then none
  else (s.mapM (digitIn? base)).map fun ds => ds.foldl (fun n d => n * base + d) 0

/-- The scalar has leading zeros: it is no number. -/
def hasLeadingZero (s : List Char) : Bool :=
  match s with
  | '-' :: r => check r
  | '+' :: r => check r
  | r => check r
where
  check (s : List Char) : Bool :=
    2 ≤ s.length && s.head? == some '0' && s.all Char.isDigit

/-- The number that a scalar without sign is written like, in any base. -/
def unsigned? (s : List Char) : Option Nat :=
  let based := match s with
    | '0' :: 'x' :: r => natural? 16 r
    | '0' :: 'o' :: r => natural? 8 r
    | '0' :: 'b' :: r => natural? 2 r
    | _ => none
  match based with
  | some n => some n
  | none => if hasLeadingZero s then none else natural? 10 s

/-- The whole number that a scalar is written like. -/
def whole? : List Char → Option Int
  | '+' :: r => (unsigned? r).map Int.ofNat
  | '-' :: r => (unsigned? r).map fun n => -(n : Int)
  | s => (unsigned? s).map Int.ofNat

/-- Whole numbers of this many bits are known. -/
def widestBits : Nat :=
  128

/-- A power of two. -/
def powerOfTwo (n : Nat) : Int :=
  Int.ofNat (Nat.pow 2 n)

/-- What a whole number stands for, if it is known. -/
def ofWhole? (n : Int) : Option Plain :=
  if -(powerOfTwo 63) ≤ n ∧ n < powerOfTwo 64 then some (.number (.whole n))
  else if -(powerOfTwo (widestBits - 1)) ≤ n ∧ n < powerOfTwo widestBits then some (.wide n)
  else none

/-- The double nearest to a decimal; `none` if it is too large for one. -/
def nearest? (digits : List Char) (exponent : Int) : Option Float :=
  let significant := digits.dropWhile (· == '0')
  let m := significant.foldl (fun n d => 10 * n + (d.toNat - '0'.toNat)) 0
  let top : Int := significant.length + exponent
  if m = 0 then some 0.0
  else if 400 < top then none
  else if top < -400 then some 0.0
  else
    let f := if 0 ≤ exponent then Float.ofScientific (m * Nat.pow 10 exponent.toNat) false 0
      else Float.ofScientific m true exponent.natAbs
    if f.isInf then none else some f

/-- The exponent that a decimal ends with; zero if there is none. -/
def exponent? : List Char → Option Int
  | [] => some 0
  | c :: r =>
    if c ≠ 'e' ∧ c ≠ 'E' then none
    else match r with
      | '+' :: r => (natural? 10 r).map Int.ofNat
      | '-' :: r => (natural? 10 r).map fun n => -(n : Int)
      | r => (natural? 10 r).map Int.ofNat

/-- The double that a decimal without sign stands for. -/
def decimal? (s : List Char) : Option Float :=
  let before := s.takeWhile Char.isDigit
  let rest := s.drop before.length
  let (after, rest) := match rest with
    | '.' :: r => (r.takeWhile Char.isDigit, r.dropWhile Char.isDigit)
    | r => ([], r)
  if before.isEmpty ∧ after.isEmpty then none
  else do nearest? (before ++ after) ((← exponent? rest) - after.length)

/-- What no number is written like, as a double. -/
def notANumber : Float :=
  Float.ofBits 0x7FF8000000000000

/-- The double that a scalar is written like. -/
def double? (s : List Char) : Option Float :=
  let infinite (s : List Char) : Bool := [".inf", ".Inf", ".INF"].contains (String.ofList s)
  if [".nan", ".NaN", ".NAN"].contains (String.ofList s) then some notANumber
  else match s with
    | '+' :: r => if infinite r then some (1.0 / 0.0) else decimal? r
    | '-' :: r => if infinite r then some (-1.0 / 0.0) else (decimal? r).map fun f => -f
    | s => if infinite s then some (1.0 / 0.0) else decimal? s

/-- What a plain scalar without a tag stands for. -/
def ofPlain (s : List Char) : Plain :=
  if s.isEmpty ∨ isNull s then .null
  else match bool? s with
    | some b => .bool b
    | none =>
      match (whole? s).bind ofWhole? with
      | some n => n
      | none =>
        match if hasLeadingZero s then none else double? s with
        | some f => .number (.double f.toBits)
        | none => .text s

/-! ## Tags -/

/-- The start of the tags of the core schema. -/
def coreTag : String :=
  "tag:yaml.org,2002:"

/-- The octets are the UTF-8 form of a text. -/
def isEncoded (octets : List Char) : Bool :=
  (String.fromUTF8? ⟨(octets.map fun c => UInt8.ofNat c.toNat).toArray⟩).isSome

/-- The name of a tag of one's own: a tag that starts with an exclamation mark, less that mark if
anything follows it. A name that is no text is none. -/
def ownTag? : Option (List Char) → Option (List Char)
  | some ['!'] => some ['!']
  | some ('!' :: name) => if isEncoded name then some name else none
  | _ => none

/-- The name of a tag without an exclamation mark in front. -/
def bareName : List Char → List Char
  | '!' :: c :: name => c :: name
  | name => name

/-- What a scalar stands for, or what its tag asks for in vain. A scalar whose own tag was already
read is taken as if it had none. -/
def resolve (tag : Option (List Char)) (tagRead : Bool) (text : List Char) (style : Style) :
    Except String Plain :=
  match tag, tagRead with
  | some tag, false =>
    let name := String.ofList tag
    let needs (expected : String) (found : Option Plain) : Except String Plain :=
      match found with
      | some p => .ok p
      | none => .error expected
    if name = coreTag ++ "bool" then needs "a boolean" ((bool? text).map .bool)
    else if name = coreTag ++ "int" then needs "an integer" ((whole? text).bind ofWhole?)
    else if name = coreTag ++ "float" then
      needs "a float" ((double? text).map fun f => .number (.double f.toBits))
    else if name = coreTag ++ "null" then needs "null" (if isNull text then some .null else none)
    else .ok (if tag.head? = some '!' ∧ style = .plain then ofPlain text else .text text)
  | _, _ => .ok (if style = .plain then ofPlain text else .text text)

end Anchored.Yaml
