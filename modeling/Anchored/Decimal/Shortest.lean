/-!
# The shortest decimal of a binary fraction

A finite double stands for `m · 2 ^ q`. Among the decimals that lie nearer to it than to any other
double, the ones with the fewest digits are taken, and of those the nearest. All arithmetic is on
natural numbers.
-/

namespace Anchored.Decimal

/-- A positive decimal: its digits, the first of which is not zero, and the power of ten that the
last one counts. -/
structure Digits where
  digits : List Char
  exponent : Int
  deriving DecidableEq, Repr

/-- The decimal exponent of the first digit. -/
def Digits.leading (d : Digits) : Int :=
  d.exponent + d.digits.length - 1

/-- A fraction of natural numbers. -/
structure Ratio where
  num : Nat
  den : Nat

/-- `n · b ^ e`. -/
def scaled (n b : Nat) (e : Int) : Ratio :=
  if 0 ≤ e then ⟨n * Nat.pow b e.toNat, 1⟩ else ⟨n, Nat.pow b (-e).toNat⟩

/-- The fraction is smaller. -/
def Ratio.lt (a b : Ratio) : Bool :=
  a.num * b.den < b.num * a.den

/-- The distance of two fractions. -/
def Ratio.dist (a b : Ratio) : Ratio :=
  ⟨(a.num * b.den - b.num * a.den) + (b.num * a.den - a.num * b.den), a.den * b.den⟩

/-- The positive doubles, as a significand and a power of two; `none` for zero, infinities and what
is no number. -/
def decode (bits : UInt64) : Option (Nat × Int) :=
  let fraction := (bits &&& 0xFFFFFFFFFFFFF).toNat
  let exponent := ((bits >>> 52) &&& 0x7FF).toNat
  if exponent = 0x7FF then none
  else if exponent = 0 then if fraction = 0 then none else some (fraction, -1074)
  else some (fraction + Nat.pow 2 52, (exponent : Int) - 1075)

/-- The points of the grid of tenth powers `10 ^ e` next to a value, nearest first, so far as they
lie between the bounds. -/
def neighbours (value low high : Ratio) (closed : Bool) (e : Int) : Option Nat :=
  let unit := scaled 1 10 e
  let below := (value.num * unit.den) / (value.den * unit.num)
  let inside (n : Nat) : Bool :=
    let r : Ratio := ⟨n * unit.num, unit.den⟩
    n != 0 && (low.lt r || (closed && !r.lt low)) && (r.lt high || (closed && !high.lt r))
  let distance (n : Nat) : Ratio := value.dist ⟨n * unit.num, unit.den⟩
  match inside below, inside (below + 1) with
  | false, false => none
  | true, false => some below
  | false, true => some (below + 1)
  | true, true =>
    let a := distance below
    let b := distance (below + 1)
    if a.lt b then some below
    else if b.lt a then some (below + 1)
    else if below % 2 = 0 then some below else some (below + 1)

/-- The first grid, from the coarsest on, that has a point between the bounds. -/
def firstGrid (value low high : Ratio) (closed : Bool) (e : Int) : Nat → Option (Nat × Int)
  | 0 => none
  | fuel + 1 =>
    match neighbours value low high closed e with
    | some n => some (n, e)
    | none => firstGrid value low high closed (e - 1) fuel

/-- A number with the zeros at its end moved into the exponent. -/
def normal (digits : List Char) (e : Int) : Digits :=
  let kept := (digits.reverse.dropWhile (· == '0')).reverse
  ⟨kept, e + (digits.length - kept.length : Nat)⟩

/-- The shortest decimal that is read as the double with these bits, whatever its sign. -/
def shortest (bits : UInt64) : Option Digits := do
  let (m, q) ← decode bits
  let value := scaled m 2 q
  let narrow := m == Nat.pow 2 52 && q != -1074
  let high := scaled (2 * m + 1) 2 (q - 1)
  let low := if narrow then scaled (4 * m - 1) 2 (q - 2) else scaled (2 * m - 1) 2 (q - 1)
  let top : Int := ((m.log2 : Int) + q + 1) * 30103 / 100000 + 1
  let (n, e) ← firstGrid value low high (m % 2 == 0) top 40
  return normal (toString n).toList e

end Anchored.Decimal
