import Anchored.Disk.Fault
import Anchored.Text.Measure
import Anchored.Text.Preview

/-!
# Why an edit was refused
-/

namespace Anchored

/-- Why an edit or an undo did not happen. -/
inductive EditError where
  | fileNotFound (path : String)
  /-- The anchor occurs nowhere. -/
  | anchorNotFound (path preview : String)
  /-- The anchor occurs more than once. -/
  | ambiguous (path : String) (count : Nat) (preview : String)
  /-- The file would stay as it is. -/
  | noChange (path : String)
  /-- What was written is not well-formed, and the file has its old content back. -/
  | invalid (path reason : String)
  /-- What was written is not well-formed, and the old content could not be written back. -/
  | revertFailed (path reason : String) (cause : FileError)
  /-- The file no longer holds what the edit wrote. -/
  | staleUndo (path : String)
  | file (error : FileError)
  /-- A span that runs backwards, leaves the text or cuts a character. -/
  | badSpan (span : Span)
  deriving DecidableEq, Repr

namespace EditError

/-- Characters of an anchor that a message quotes. -/
def anchorPreview : Nat :=
  100

/-- The error for an anchor that was found `count` times, where once was asked for. -/
def ofCount (path find : String) (count : Nat) : EditError :=
  let preview := Text.preview find anchorPreview
  if count = 0 then .anchorNotFound path preview else .ambiguous path count preview

/-- How often the anchor was found, if that is why the edit was refused. -/
def matchCount : EditError → Option Nat
  | .anchorNotFound .. => some 0
  | .ambiguous _ count _ => some count
  | _ => none

/-- The text of an error. -/
def message : EditError → String
  | .fileNotFound path => "File not found: " ++ path
  | .anchorNotFound path preview => "Anchor not found in " ++ path ++ ": '" ++ preview ++ "'"
  | .ambiguous path count preview =>
    "Anchor ambiguous in " ++ path ++ ", found " ++ toString count ++ " times: '" ++ preview ++
      "'. Include more surrounding context to make it unique"
  | .noChange path =>
    "Replacement produces no change in " ++ path ++
      "; find and replace blocks are likely identical"
  | .invalid path reason => "Validation failed for " ++ path ++ ", edit reverted: " ++ reason
  | .revertFailed path reason cause =>
    "Validation failed for " ++ path ++ " (" ++ reason ++ ") and revert failed: " ++ cause.message
  | .staleUndo path => "Cannot undo edit to " ++ path ++ ": file changed since edit"
  | .file error => error.message
  | .badSpan span =>
    "Bytes " ++ toString span.start ++ " to " ++ toString span.stop ++ " are no part of the text"

end EditError

end Anchored
