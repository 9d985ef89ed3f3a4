import Anchored.Json.Reader
import Anchored.Response

/-!
# Replies

What a caller makes of the text of a response: its fields, with what a success led to as any JSON
value and the kind of a failure as a word.
-/

namespace Anchored

open Json

/-- A response as a caller reads it. -/
structure Reply where
  executionId : String
  success : Bool
  result : Option Value
  errorKind : Option String
  matchCount : Option Nat
  error : Option String

namespace Reply

/-- A response as it is read from the text that was written for it. -/
def ofResponse (r : EditResponse) : Reply :=
  ⟨r.executionId, r.success, r.result.map Report.toValue, r.errorKind.map ErrorKind.text,
    r.matchCount, r.error⟩

/-- What a reply looks like. All but the first two fields may be left out. -/
def shape : Shape :=
  .record "EditResponse" [
    ("execution_id", .text, none),
    ("success", .flag, none),
    ("result", .nullable .any, some .null),
    ("error_kind", .nullable .text, some .null),
    ("match_count", .nullable (.natural "usize"), some .null),
    ("error", .nullable .text, some .null)]

/-- Nothing for null. -/
def optional (decode : Value → Option α) : Value → Option (Option α)
  | .null => some none
  | v => (decode v).map some

/-- The text in a value. -/
def text? : Value → Option String
  | .string s => some s
  | _ => none

/-- The natural number in a value. -/
def natural? : Value → Option Nat
  | .number (.natural n) => some n
  | _ => none

/-- The reply in a value of the shape. -/
def ofValue? : Value → Option Reply
  | .object [(_, .string id), (_, .bool success), (_, result), (_, kind), (_, count),
      (_, error)] => do
    return ⟨id, success, ← optional some result, ← optional text? kind, ← optional natural? count,
      ← optional text? error⟩
  | _ => none

/-- Reads a reply from a JSON text. -/
def read (text : String) : Except Error Reply := do
  match ofValue? (← Json.read shape text) with
  | some reply => return reply
  | none => (Cursor.start []).fail .expectedValue

end Reply

end Anchored
