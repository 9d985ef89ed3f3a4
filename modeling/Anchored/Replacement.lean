import Anchored.Checksum
import Anchored.EditError
import Anchored.Text.Lines

/-!
# Replacing one span of a text
-/

namespace Anchored

/-- A text with one span replaced, and what changed. -/
structure Replacement where
  /-- The whole text after the replacement. -/
  content : String
  /-- The replaced span of the old text. -/
  span : Span
  /-- What the span covered. -/
  oldBlock : String
  /-- Lines of the old or the new block, whichever has more. -/
  linesChanged : Nat
  /-- Bytes by which the text grew. -/
  byteShift : Int
  /-- The checksum of the text after the replacement. -/
  checksum : String
  deriving DecidableEq, Repr

/-- Lines that a change from one block to another touches. -/
def linesChanged (old new : String) : Nat :=
  Text.linesChanged old.toList new.toList

/-- The text with exactly one span replaced, every byte outside of it kept. A replacement that
leaves the text as it was is refused. -/
def Replacement.of (path content : String) (span : Span) (block : String) :
    Except EditError Replacement :=
  match span.cut? content.toList with
  | none => .error (.badSpan span)
  | some (before, covered, after) =>
    let new := String.ofList (before ++ block.toList ++ after)
    if new = content then .error (.noChange path)
    else
      let old := String.ofList covered
      .ok {
        content := new
        span := span
        oldBlock := old
        linesChanged := Anchored.linesChanged old block
        byteShift := (block.utf8ByteSize : Int) - span.size
        checksum := Anchored.checksum new }

end Anchored
