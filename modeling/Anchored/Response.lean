import Anchored.Editor
import Anchored.Json.Printer

/-!
# Responses

A response tells a caller what became of a request, as a JSON object or in plain words.
-/

namespace Anchored

open Json

/-- The kind of a failure, as callers tell failures apart. -/
inductive ErrorKind where
  | fileNotFound
  | anchorNotFound
  | ambiguous
  | noChange
  | invalid
  | revertFailed
  | staleUndo
  | io
  /-- The request itself is at fault. -/
  | request
  /-- An anchor that was only checked names no single place. -/
  | anchor
  deriving DecidableEq, Repr

/-- The word for a kind. -/
def ErrorKind.text : ErrorKind → String
  | .fileNotFound => "file_not_found"
  | .anchorNotFound => "anchor_not_found"
  | .ambiguous => "ambiguous"
  | .noChange => "no_op"
  | .invalid => "validation_failed"
  | .revertFailed => "revert_failed"
  | .staleUndo => "stale_undo"
  | .io => "io"
  | .request => "request"
  | .anchor => "anchor"

/-- The kind of an error. -/
def EditError.kind : EditError → ErrorKind
  | .fileNotFound _ => .fileNotFound
  | .anchorNotFound .. => .anchorNotFound
  | .ambiguous .. => .ambiguous
  | .noChange _ => .noChange
  | .invalid .. => .invalid
  | .revertFailed .. => .revertFailed
  | .staleUndo _ => .staleUndo
  | .file (.notFound _) => .fileNotFound
  | .file _ => .io
  | .badSpan _ => .request

/-- What a successful request leads to. -/
inductive Report where
  | edit (result : EditResult)
  /-- An anchor was checked and names one place. -/
  | anchor (message : String)
  deriving DecidableEq, Repr

/-- A report as a JSON value. -/
def Report.toValue : Report → Value
  | .edit result => result.toValue
  | .anchor message => .object [("message", .string message)]

/-- A report in plain words. -/
def Report.summary : Report → String
  | .anchor message => message
  | .edit r =>
    let warning := match r.problem with
      | some reason => ["Warning: result would be invalid: " ++ reason]
      | none => []
    let lint := match r.lintIssues with
      | some issues =>
        ("Lint issues (" ++ toString issues.length ++ "):") :: issues.map ("  " ++ ·)
      | none => []
    "\n".intercalate <|
      [r.message, "Lines changed: " ++ toString r.linesChanged,
        "New checksum: " ++ r.newChecksum] ++ warning ++ lint

/-- What became of a request. -/
structure EditResponse where
  /-- The name of the run. -/
  executionId : String
  success : Bool
  /-- What a success led to. -/
  result : Option Report
  errorKind : Option ErrorKind
  /-- How often an anchor was found that had to be found once. -/
  matchCount : Option Nat
  /-- The text of a failure. -/
  error : Option String
  deriving DecidableEq, Repr

namespace EditResponse

/-- The response to a request that succeeded. -/
def ofReport (id : String) (report : Report) : EditResponse :=
  ⟨id, true, some report, none, none, none⟩

/-- The response to a request that was refused. -/
def ofError (id : String) (e : EditError) : EditResponse :=
  ⟨id, false, none, some e.kind, e.matchCount, some e.message⟩

/-- The response to an edit. -/
def ofEdit (id : String) : Except EditError EditResult → EditResponse
  | .ok result => ofReport id (.edit result)
  | .error e => ofError id e

/-- The response to a check of an anchor. -/
def ofCheck (id : String) (check : AnchorCheck) : EditResponse :=
  if check.holds then ofReport id (.anchor check.message)
  else ⟨id, false, none, some .anchor, none, some check.message⟩

/-- The response to something that never came to be a request. -/
def failure (id : String) (message : String) : EditResponse :=
  ⟨id, false, none, some .request, none, some message⟩

/-- What stands before the reason why a text is no request. -/
def invalidRequest (reason : String) : String :=
  "Invalid edit request: " ++ reason

/-- A response as a JSON value. What is not there is left out. -/
def toValue (r : EditResponse) : Value :=
  let member? (name : String) (v : Option Value) : List (String × Value) :=
    (v.map fun v => (name, v)).toList
  .object <|
    [("execution_id", .string r.executionId), ("success", .bool r.success)] ++
      member? "result" (r.result.map Report.toValue) ++
      member? "error_kind" (r.errorKind.map fun kind => .string kind.text) ++
      member? "match_count" (r.matchCount.map .ofNat) ++
      member? "error" (r.error.map .string)

/-- A response in plain words. -/
def summary (r : EditResponse) : String :=
  if r.success then (r.result.map Report.summary).getD "OK"
  else "Error: " ++ r.error.getD "Unknown error"

end EditResponse

end Anchored
