import Anchored.Decimal.Shortest

/-!
# Written doubles

A double is written with the fewest digits that read back as it: positional from `0.00001` up to
sixteen digits before the point, with at least one digit after it, and else with an exponent.
-/

namespace Anchored.Decimal

/-- What the writers of doubles decide in different ways. -/
structure Layout where
  /-- What stands in front of an exponent that is not negative. -/
  plus : List Char
  deriving DecidableEq, Repr

/-- The digits of a decimal, with a point or an exponent. -/
def Digits.write (layout : Layout) (d : Digits) : List Char :=
  let lead := d.leading
  if 0 ≤ d.exponent ∧ lead < 16 then
    d.digits ++ List.replicate d.exponent.toNat '0' ++ ['.', '0']
  else if 0 ≤ lead ∧ lead < 16 then
    d.digits.take (lead + 1).toNat ++ ['.'] ++ d.digits.drop (lead + 1).toNat
  else if -6 < lead ∧ lead < 0 then
    ['0', '.'] ++ List.replicate (-lead - 1).toNat '0' ++ d.digits
  else
    d.digits.take 1 ++ (if d.digits.length = 1 then [] else '.' :: d.digits.drop 1) ++
      ['e'] ++ (if lead < 0 then ['-'] else layout.plus) ++ (toString lead.natAbs).toList

/-- The written form of the double with the given bits, which is a number. -/
def Layout.write (layout : Layout) (bits : UInt64) : String :=
  let sign := if bits >>> 63 = 1 then "-" else ""
  match shortest bits with
  | some d => sign ++ String.ofList (d.write layout)
  | none => sign ++ "0.0"

end Anchored.Decimal
