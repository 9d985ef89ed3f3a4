/-!
# Places in a YAML text
-/

namespace Anchored.Yaml

/-- A place: characters, line breaks and characters of the line before it. -/
structure Mark where
  index : Nat
  line : Nat
  column : Nat
  deriving DecidableEq, Repr

namespace Mark

/-- The start of a text. -/
def start : Mark :=
  ⟨0, 0, 0⟩

/-- The mark stands at the very start, where messages name no place. -/
def isStart (m : Mark) : Bool :=
  m.line == 0 && m.column == 0

/-- The words for a place. -/
def message (m : Mark) : String :=
  "line " ++ toString (m.line + 1) ++ " column " ++ toString (m.column + 1)

/-- The words that a message ends with to name a place. -/
def suffix (m : Mark) : String :=
  if m.isStart then "" else " at " ++ m.message

end Mark

end Anchored.Yaml
