import Anchored.Disk.Store

/-!
# What a linter says

A linter looks at a file after an edit. Its findings are told to the caller, and that is all: they
never undo an edit.
-/

namespace Anchored

/-- What a linter says about a file. -/
structure LintReport where
  passed : Bool
  /-- What it found, one line each. -/
  issues : List String
  deriving DecidableEq, Repr

namespace LintReport

/-- Nothing to complain about. -/
def pass : LintReport :=
  ⟨true, []⟩

/-- A failure with its findings. -/
def fail (issues : List String) : LintReport :=
  ⟨false, issues⟩

/-- What a caller is told: the findings of a linter that did not pass. -/
def findings? (r : LintReport) : Option (List String) :=
  if r.passed then none else some r.issues

end LintReport

/-- A linter: what it says about the file at a path, and what it leaves of the files. -/
def Linter : Type :=
  String → Store → LintReport × Store

/-- A linter that says the same about every file and leaves all files alone. -/
def Linter.always (report : LintReport) : Linter :=
  fun _ s => (report, s)

end Anchored
