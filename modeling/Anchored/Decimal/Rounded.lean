import Anchored.Decimal.Shortest

/-!
# Rounded doubles

The digits of a double up to a given place, where the exact value is rounded to the nearest decimal
and a tie goes to the even one. The same for hexadecimal digits.
-/

namespace Anchored.Decimal

/-- The nearest whole number to a fraction; a tie goes to the even one. -/
def Ratio.nearest (r : Ratio) : Nat :=
  let below := r.num / r.den
  let rest := 2 * (r.num % r.den)
  if rest < r.den then below
  else if r.den < rest then below + 1
  else below + below % 2

/-- The value `m · 2 ^ q` times `10 ^ e`. -/
def tenfold (m : Nat) (q e : Int) : Ratio :=
  let two := scaled m 2 q
  let ten := scaled 1 10 e
  ⟨two.num * ten.num, two.den * ten.den⟩

/-- The number with `places` digits behind the point. -/
def positional (places : Nat) (sharp : Bool) (n : Nat) : String :=
  let digits := (toString n).toList
  let digits := List.replicate (places + 1 - digits.length) '0' ++ digits
  let whole := digits.take (digits.length - places)
  let fraction := digits.drop (digits.length - places)
  String.ofList (whole ++ (if places = 0 ∧ ! sharp then [] else '.' :: fraction))

/-- The value `m · 2 ^ q` with `places` digits behind the point. -/
def fixedPoint (places : Nat) (sharp : Bool) (m : Nat) (q : Int) : String :=
  positional places sharp (tenfold m q places).nearest

/-- The power of ten of the first digit of `m · 2 ^ q`. -/
def leadingPower (m : Nat) (q : Int) : Int :=
  let guess : Int := ((m.log2 : Int) + q) * 30103 / 100000
  let least (e : Int) : Bool :=
    let r := tenfold m q (-e)
    r.den ≤ r.num
  if least (guess + 1) then guess + 1 else if least guess then guess else guess - 1

/-- The first `places + 1` digits of `m · 2 ^ q` as a number, and the power of ten of the first. -/
def significant (places : Nat) (m : Nat) (q : Int) : Nat × Int :=
  if m = 0 then (0, 0)
  else
    let e := leadingPower m q
    let n := (tenfold m q (places - e)).nearest
    if Nat.pow 10 (places + 1) ≤ n then (n / 10, e + 1) else (n, e)

/-- An exponent behind its letter. -/
def exponentText (digits : Nat) (e : Int) : String :=
  let text := toString e.natAbs
  let zeros := String.ofList (List.replicate (digits - text.length) '0')
  (if e < 0 then "-" else "+") ++ zeros ++ text

/-- The value `m · 2 ^ q` with one digit in front of the point and `places` behind it. -/
def scientific (places : Nat) (sharp : Bool) (m : Nat) (q : Int) : String :=
  let (n, e) := significant places m q
  positional places sharp n ++ "e" ++ exponentText 2 e

/-- A text of digits without the zeros behind its point. -/
def withoutZeros (text : String) : String :=
  if text.contains '.' then
    let kept := text.toList.reverse.dropWhile (· == '0')
    String.ofList (kept.dropWhile (· == '.')).reverse
  else text

/-- The value `m · 2 ^ q` with `places` significant digits, in the shorter of the two forms. -/
def general (places : Nat) (sharp : Bool) (m : Nat) (q : Int) : String :=
  let places := max places 1
  let (n, e) := significant (places - 1) m q
  let tidy (text : String) : String := if sharp then text else withoutZeros text
  if -4 ≤ e ∧ e < places then
    tidy (fixedPoint ((places : Int) - 1 - e).toNat sharp m q)
  else tidy (positional (places - 1) sharp n) ++ "e" ++ exponentText 2 e

/-- The value `m · 2 ^ q` in hexadecimal digits, `places` of them behind the point or as many as
are needed. -/
def hexadecimal (places : Option Nat) (sharp : Bool) (m : Nat) (q : Int) : String :=
  let lead := Nat.pow 2 52
  let (n, e) : Nat × Int := if m = 0 then (0, 0) else (m, q + 52)
  let (n, size) : Nat × Nat := match places with
    | some p =>
      if p < 13 then (Ratio.nearest ⟨n, Nat.pow 16 (13 - p)⟩, p) else (n * Nat.pow 16 (p - 13), p)
    | none => (n, 13)
  let unit := if size < 13 then lead / Nat.pow 16 (13 - size) else lead * Nat.pow 16 (size - 13)
  let digits := Nat.toDigits 16 (n % unit)
  let digits := List.replicate (size - digits.length) '0' ++ digits
  let digits := if size = 0 then [] else digits
  let digits := match places with
    | some _ => digits
    | none => (digits.reverse.dropWhile (· == '0')).reverse
  let point := if digits.isEmpty ∧ ! sharp then "" else "."
  "0x" ++ toString (n / unit) ++ point ++ String.ofList digits ++ "p" ++ exponentText 1 e

end Anchored.Decimal
