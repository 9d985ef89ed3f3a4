import Anchored.Anchor
import Anchored.Config
import Anchored.Disk.Document
import Anchored.EditResult
import Anchored.History
import Anchored.Linter.Command
import Anchored.Request
import Anchored.Validation

/-!
# The editor

An editor replaces the one place in a file that an anchor names. What it writes has to be
well-formed, or else the old content is written back, so that a refused edit leaves the file as it
was, as long as writes succeed. Committed edits go to the history, from which they can be undone,
newest first, while the file still holds what the edit wrote.

Every operation takes the files as they are and gives back its answer, the editor after it and the
files after it.
-/

namespace Anchored

/-- An edit with everything decided. -/
structure Edit where
  path : String
  /-- The text that names the place. -/
  find : String
  replace : String
  mode : MatchMode
  /-- Write nothing, and only tell what would change. -/
  dryRun : Bool
  deriving DecidableEq, Repr

/-- The way to compare that a request asks for; `preset` is meant where it asks for none. -/
def MatchMode.resolve (preset : Bool) (strict : Option Bool) : MatchMode :=
  if strict.getD preset then .strict else .fuzzy

/-- The edit that a request asks for. -/
def EditRequest.edit (preset : Bool) (r : EditRequest) : Edit :=
  ⟨r.path, r.find, r.replace, .resolve preset r.strict, r.dryRun⟩

/-- The line that a byte of a text lies on. -/
def lineOf (content : String) (offset : Nat) : Nat :=
  (Position.ofByte content.toList offset).line

/-! ## Planning -/

/-- An edit that can be made: the file, and the replacement in its content. -/
structure Plan where
  document : Document
  replacement : Replacement
  deriving DecidableEq, Repr

namespace Plan

/-- Looks up everything that an edit needs. Here an edit is refused that has no file, no single
place or no effect. -/
def of (s : Store) (e : Edit) : Except EditError Plan :=
  if s.isFile e.path then
    match Document.read s e.path with
    | .error error => .error (.file error)
    | .ok document =>
      match locateUnique e.path document.content e.find e.mode with
      | .error error => .error error
      | .ok span =>
        match Replacement.of e.path document.content span e.replace with
        | .error error => .error error
        | .ok replacement => .ok ⟨document, replacement⟩
  else .error (.fileNotFound e.path)

/-- The line that the replaced text starts on. -/
def line (p : Plan) : Nat :=
  lineOf p.document.content p.replacement.span.start

/-- What makes the new content ill-formed. -/
def problem (p : Plan) : Option String :=
  (validate p.document.path p.replacement.content p.document.content).problem

/-- Writes the file as it was before. -/
def revert (p : Plan) (s : Store) : Except FileError Unit × Store :=
  Document.write s p.document.path p.document.content

/-- Writes the new content, and the old one again if the new one is not well-formed or does not
arrive in full. -/
def carryOut (p : Plan) (s : Store) : Except EditError Unit × Store :=
  match Document.write s p.document.path p.replacement.content with
  | (.error error, s) => (.error (.file error), (p.revert s).2)
  | (.ok (), s) =>
    match p.problem with
    | none => (.ok (), s)
    | some reason =>
      match p.revert s with
      | (.ok (), s) => (.error (.invalid p.document.path reason), s)
      | (.error cause, s) => (.error (.revertFailed p.document.path reason cause), s)

/-- What the history keeps of the edit. -/
def committed (p : Plan) (e : Edit) : CommittedEdit :=
  ⟨p.document.path, p.document.content, p.replacement.content, e.find, e.replace⟩

/-- What is told of the edit. `preview` cuts a text for display. -/
def result (p : Plan) (e : Edit) (preview : String → String) (deed : Deed)
    (problem : Option String) (lintIssues : Option (List String)) : EditResult where
  path := p.document.path
  deed := deed
  oldPreview := preview p.replacement.oldBlock
  newPreview := preview e.replace
  linesChanged := p.replacement.linesChanged
  byteShift := p.replacement.byteShift
  problem := problem
  lintIssues := lintIssues
  oldChecksum := p.document.checksum
  newChecksum := p.replacement.checksum

end Plan

/-! ## The editor -/

/-- Settings, the edits that can be undone, and a linter. -/
structure Editor where
  config : EditorConfig
  history : History
  linter : Option Linter

namespace Editor

/-- An editor with a history. Its linter is the command of the settings, if they name one. -/
def withHistory (config : EditorConfig) (history : History) : Editor :=
  ⟨config, history, config.lint.map LintConfig.linter⟩

/-- An editor that has not edited anything. -/
def new (config : EditorConfig) : Editor :=
  withHistory config (.empty config.maxHistory)

/-- A text cut to what the settings show of it. -/
def preview (ed : Editor) (text : String) : String :=
  Text.preview text ed.config.previewChars

/-- What the linter finds in the file at a path. -/
def lint (ed : Editor) (path : String) (s : Store) : Option (List String) × Store :=
  match ed.linter with
  | none => (none, s)
  | some linter =>
    let (report, s) := linter path s
    (report.findings?, s)

/-- Makes an edit, or plans it. -/
def edit (ed : Editor) (s : Store) (e : Edit) : Except EditError EditResult × Editor × Store :=
  match Plan.of s e with
  | .error error => (.error error, ed, s)
  | .ok plan =>
    if e.dryRun then
      (.ok (plan.result e ed.preview (.planned plan.line) plan.problem none), ed, s)
    else
      match plan.carryOut s with
      | (.error error, s) => (.error error, ed, s)
      | (.ok (), s) =>
        let (issues, s) := ed.lint e.path s
        (.ok (plan.result e ed.preview (.replaced plan.line) none issues),
          { ed with history := ed.history.commit (plan.committed e) }, s)

/-- Does what a request asks for. -/
def apply (ed : Editor) (s : Store) (r : EditRequest) :
    Except EditError EditResult × Editor × Store :=
  ed.edit s (r.edit ed.config.strict)

/-- Undoes the newest edit. There may be none; and one whose file does not hold what the edit wrote
stays in the history. -/
def undo (ed : Editor) (s : Store) : Except EditError (Option EditResult) × Editor × Store :=
  match ed.history.pop? with
  | none => (.ok none, ed, s)
  | some (entry, rest) =>
    let kept := { ed with history := rest.restore entry }
    match Document.read s entry.path with
    | .error error => (.error (.file error), kept, s)
    | .ok current =>
      if current.content ≠ entry.after then (.error (.staleUndo entry.path), kept, s)
      else
        match Document.write s entry.path entry.before with
        | (.error error, s) => (.error (.file error), kept, s)
        | (.ok (), s) =>
          let result : EditResult := {
            path := entry.path
            deed := .undone
            oldPreview := ed.preview entry.replace
            newPreview := ed.preview entry.find
            linesChanged := linesChanged entry.replace entry.find
            byteShift := (entry.before.utf8ByteSize : Int) - entry.after.utf8ByteSize
            problem := none
            lintIssues := none
            oldChecksum := current.checksum
            newChecksum := checksum entry.before }
          (.ok (some result), { ed with history := rest }, s)

/-- The history with no entry left. -/
def clearHistory (ed : Editor) : Editor :=
  { ed with history := ed.history.clear }

/-- The editor with another linter, or with none. -/
def withLinter (ed : Editor) (linter : Option Linter) : Editor :=
  { ed with linter }

end Editor

/-! ## Checking an anchor -/

/-- The outcome of a check of an anchor. -/
inductive AnchorCheck where
  /-- The anchor names one place, which starts on this line. -/
  | unique (line : Nat)
  | unreadable (error : FileError)
  | refused (error : EditError)
  deriving DecidableEq, Repr

namespace AnchorCheck

/-- Checks whether an anchor names one place in a file. -/
def of (s : Store) (path find : String) (mode : MatchMode) : AnchorCheck :=
  match Document.read s path with
  | .error error => .unreadable error
  | .ok document =>
    match locateUnique path document.content find mode with
    | .ok span => .unique (lineOf document.content span.start)
    | .error error => .refused error

/-- The anchor names one place. -/
def holds : AnchorCheck → Bool
  | .unique _ => true
  | _ => false

/-- The text of an outcome. -/
def message : AnchorCheck → String
  | .unique line => "Anchor found exactly once at line " ++ toString line
  | .unreadable error => error.message
  | .refused error => error.message

end AnchorCheck

namespace Editor

/-- Checks an anchor in the way that the settings compare. -/
def validateAnchor (ed : Editor) (s : Store) (path find : String) : AnchorCheck :=
  .of s path find (.resolve ed.config.strict none)

/-- Checks the anchor of a request. -/
def check (ed : Editor) (s : Store) (r : EditRequest) : AnchorCheck :=
  .of s r.path r.find (.resolve ed.config.strict r.strict)

end Editor

end Anchored
