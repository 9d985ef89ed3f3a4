import Anchored.Json.Reader

/-!
# Requests

A request asks for one edit. It is a JSON object; all but the two blocks may be left out.
-/

namespace Anchored

open Json

/-- A single edit that a caller asks for. -/
structure EditRequest where
  /-- The caller's name for the request. -/
  executionId : String
  /-- The file to edit; empty if it is told in another way. -/
  path : String
  find : String
  replace : String
  /-- Compare byte by byte, or leniently; `none` leaves it to the editor's settings. -/
  strict : Option Bool
  /-- Only tell what would change. -/
  dryRun : Bool
  deriving DecidableEq, Repr

/-- The name of a run: the one that was asked for, or a new one that is made up. -/
inductive ExecutionId where
  | given (id : String)
  | fresh
  deriving DecidableEq, Repr

/-- The word that asks for a new name. -/
def ExecutionId.auto : String :=
  "auto"

/-- The name for what a request asks: an empty name asks for a new one, too. -/
def ExecutionId.resolve (id : String) : ExecutionId :=
  if id = auto ∨ id = "" then .fresh else .given id

/-- A name as a text; `fresh` is the one that is made up. -/
def ExecutionId.text (fresh : String) : ExecutionId → String
  | .given id => id
  | .fresh => fresh

namespace EditRequest

/-- What a request looks like. -/
def shape : Shape :=
  .record "EditRequest" [
    ("execution_id", .text, some (.string ExecutionId.auto)),
    ("file_path", .text, some (.string "")),
    ("find_block", .text, none),
    ("replace_block", .text, none),
    ("strict", .nullable .flag, some .null),
    ("dry_run", .flag, some (.bool false))]

/-- The request in a value of the shape. -/
def ofValue? : Value → Option EditRequest
  | .object [(_, .string id), (_, .string path), (_, .string find), (_, .string replace),
      (_, strict), (_, .bool dryRun)] =>
    match strict with
    | .null => some ⟨id, path, find, replace, none, dryRun⟩
    | .bool strict => some ⟨id, path, find, replace, some strict, dryRun⟩
    | _ => none
  | _ => none

/-- Reads a request from a JSON text. -/
def read (text : String) : Except Error EditRequest := do
  match ofValue? (← Json.read shape text) with
  | some request => return request
  | none => (Cursor.start []).fail .expectedValue

end EditRequest

end Anchored
