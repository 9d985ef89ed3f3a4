/-!
# Ranges of characters

A table of a property of characters is an array of ranges, ends included, in ascending order.
-/

namespace Anchored.Text

/-- Looks a number up in the ranges from `low` up to, but without, `high`. -/
def inRanges (ranges : Array (Nat × Nat)) (n low high : Nat) : Bool :=
  if low < high then
    let middle := (low + high) / 2
    match ranges[middle]? with
    | none => false
    | some (first, last) =>
      if n < first then inRanges ranges n low middle
      else if last < n then inRanges ranges n (middle + 1) high
      else true
  else false
termination_by high - low

/-- The character is in one of the ranges of a table. -/
def isAmong (ranges : Array (Nat × Nat)) (c : Char) : Bool :=
  inRanges ranges c.toNat 0 ranges.size

end Anchored.Text
