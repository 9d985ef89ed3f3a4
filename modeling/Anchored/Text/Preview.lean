/-!
# Previews
-/

namespace Anchored.Text

/-- A text cut to its first `max` characters, with three dots for what was cut off. -/
def preview (t : String) (max : Nat) : String :=
  if t.length ≤ max then t else String.ofList (t.toList.take max) ++ "..."

end Anchored.Text
