import Anchored.Json.Value
import Anchored.Replacement

/-!
# What became of an edit

The result of an edit that was made, of one that was only planned, or of an undo.
-/

namespace Anchored

/-- What was done. -/
inductive Deed where
  /-- Nothing was written; the anchor is on this line. -/
  | planned (line : Nat)
  /-- The anchor on this line was replaced. -/
  | replaced (line : Nat)
  /-- The newest edit was undone. -/
  | undone
  deriving DecidableEq, Repr

namespace Deed

/-- Nothing was written. -/
def isDryRun : Deed → Bool
  | .planned _ => true
  | _ => false

/-- The line on which the anchor was found, if one was looked for. -/
def line? : Deed → Option Nat
  | .planned line | .replaced line => some line
  | .undone => none

/-- What is said of a deed done to a file. -/
def message (path : String) : Deed → String
  | .planned line => "Dry run: would replace 1 occurrence at line " ++ toString line
  | .replaced line => "Replaced 1 occurrence at line " ++ toString line
  | .undone => "Undid edit to " ++ path

end Deed

/-- What became of an edit that was not refused. -/
structure EditResult where
  path : String
  deed : Deed
  /-- The start of the text that was replaced. -/
  oldPreview : String
  /-- The start of the text that replaced it. -/
  newPreview : String
  /-- Lines of the old or the new text, whichever has more. -/
  linesChanged : Nat
  /-- Bytes by which the file grew. -/
  byteShift : Int
  /-- What makes the new content ill-formed; such content is planned, but never kept. -/
  problem : Option String
  /-- What a linter found, if there is one that did not pass. -/
  lintIssues : Option (List String)
  /-- The checksum of the file before. -/
  oldChecksum : String
  /-- The checksum of the file after. -/
  newChecksum : String
  deriving DecidableEq, Repr

namespace EditResult

open Json

/-- The new content is well-formed. -/
def valid (r : EditResult) : Bool :=
  r.problem.isNone

/-- What is said of the result. -/
def message (r : EditResult) : String :=
  r.deed.message r.path

/-- The result as a JSON value, with its members in the order of their names. -/
def toValue (r : EditResult) : Value :=
  .object [
    ("byte_shift", .ofInt r.byteShift),
    ("dry_run", .bool r.deed.isDryRun),
    ("file_path", .string r.path),
    ("line", .ofOption .ofNat r.deed.line?),
    ("lines_changed", .ofNat r.linesChanged),
    ("lint_issues", .ofOption (fun issues => .array (issues.map .string)) r.lintIssues),
    ("message", .string r.message),
    ("new_checksum", .string r.newChecksum),
    ("new_preview", .string r.newPreview),
    ("old_checksum", .string r.oldChecksum),
    ("old_preview", .string r.oldPreview),
    ("success", .bool true),
    ("valid", .bool r.valid),
    ("validation_message", .ofOption .string r.problem)]

end EditResult

end Anchored
