/-!
# Occurrences of one text in another
-/

namespace Anchored.Text

/-- The byte offsets at which `needle` occurs, where the text starts at byte `start`. -/
def occurrencesFrom (needle : List Char) (start : Nat) : List Char → List Nat
  | [] => []
  | c :: r =>
    if needle.isPrefixOf (c :: r) then start :: occurrencesFrom needle (start + c.utf8Size) r
    else occurrencesFrom needle (start + c.utf8Size) r

/-- The byte offsets at which `needle` occurs in a text, overlapping occurrences included. The
empty text occurs nowhere. -/
def occurrences (t needle : List Char) : List Nat :=
  if needle.isEmpty then [] else occurrencesFrom needle 0 t

end Anchored.Text
