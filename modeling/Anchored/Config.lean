import Anchored.Disk.Store
import Anchored.History
import Anchored.Json.Reader

/-!
# Settings of an editor

Settings are read from a JSON file. Every setting of an editor has a default; a linter must at
least name its command.
-/

namespace Anchored

open Json

/-- A command that checks a file after an edit. -/
structure LintConfig where
  command : String
  args : List String
  /-- Seconds that the command may run. -/
  timeoutSecs : Nat
  deriving DecidableEq, Repr

/-- The settings of an editor. -/
structure EditorConfig where
  /-- Committed edits kept for undo. -/
  maxHistory : Nat
  /-- Characters that previews show of a block. -/
  previewChars : Nat
  /-- Anchors are compared byte by byte where a request does not say how. -/
  strict : Bool
  lint : Option LintConfig
  deriving DecidableEq, Repr

namespace LintConfig

/-- Seconds that a command may run where nothing else is said. -/
def defaultTimeout : Nat :=
  30

/-- What a linter's settings look like. -/
def shape : Shape :=
  .record "LintConfig" [
    ("command", .text, none),
    ("args", .list .text, some (.array [])),
    ("timeout_secs", .natural "u64", some (.ofNat defaultTimeout))]

/-- The settings in a value of the shape. -/
def ofValue? : Value → Option LintConfig
  | .object [(_, .string command), (_, .array args), (_, .number (.natural secs))] => do
    let args ← args.mapM fun
      | .string s => some s
      | _ => none
    return ⟨command, args, secs⟩
  | _ => none

/-- Reads a linter's settings from a JSON text. -/
def read (text : String) : Except Error LintConfig := do
  match ofValue? (← Json.read shape text) with
  | some config => return config
  | none => (Cursor.start []).fail .expectedValue

end LintConfig

/-- Why settings could not be read. -/
inductive ConfigError where
  | fault (path : String) (reason : Fault)
  | malformed (path : String) (error : Error)
  deriving DecidableEq, Repr

/-- The text of an error. -/
def ConfigError.message : ConfigError → String
  | .fault path reason => "Failed to read config " ++ path ++ ": " ++ reason.message
  | .malformed path error => "Invalid config " ++ path ++ ": " ++ error.message

namespace EditorConfig

/-- The settings where nothing is said. -/
def default : EditorConfig where
  maxHistory := History.defaultMax
  previewChars := 200
  strict := true
  lint := none

/-- What an editor's settings look like. -/
def shape : Shape :=
  .record "EditorConfig" [
    ("max_history", .natural "usize", some (.ofNat default.maxHistory)),
    ("preview_chars", .natural "usize", some (.ofNat default.previewChars)),
    ("strict", .flag, some (.bool default.strict)),
    ("lint", .nullable LintConfig.shape, some .null)]

/-- The settings in a value of the shape. -/
def ofValue? : Value → Option EditorConfig
  | .object [(_, .number (.natural maxHistory)), (_, .number (.natural previewChars)),
      (_, .bool strict), (_, lint)] =>
    match lint with
    | .null => some ⟨maxHistory, previewChars, strict, none⟩
    | lint => (LintConfig.ofValue? lint).map fun lint =>
      ⟨maxHistory, previewChars, strict, some lint⟩
  | _ => none

/-- Reads an editor's settings from a JSON text. -/
def read (text : String) : Except Error EditorConfig := do
  match ofValue? (← Json.read shape text) with
  | some config => return config
  | none => (Cursor.start []).fail .expectedValue

/-- Reads an editor's settings from a file. -/
def load (s : Store) (path : String) : Except ConfigError EditorConfig :=
  match s.text path with
  | .error reason => .error (.fault path reason)
  | .ok text =>
    match read text with
    | .error error => .error (.malformed path error)
    | .ok config => .ok config

end EditorConfig

end Anchored
