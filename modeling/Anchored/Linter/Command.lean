import Anchored.Config
import Anchored.Linter.Report
import Anchored.Shell.Launch
import Anchored.Text.Lines
import Anchored.Text.Lossy

/-!
# Commands as linters

A linter can be a command that is told the file. It passes if it succeeds. If it fails, the lines
that it wrote are its findings; and it fails, too, if it cannot be started or takes too long.
-/

namespace Anchored

open Shell

namespace LintConfig

/-- What stands for the file in an argument. -/
def placeholder : String :=
  "\x7bfile\x7d"

/-- The arguments of the command for a file. If none of them has a place for the file, it comes
last. -/
def arguments (c : LintConfig) (path : String) : List String :=
  let pieces := c.args.map (·.splitOn placeholder)
  pieces.map path.intercalate ++ if pieces.any fun ps => 1 < ps.length then [] else [path]

/-- Findings that are kept. -/
def maxIssues : Nat :=
  50

/-- The lines of what a command wrote that hold anything, without the blanks at their ends. -/
def issueLines (bytes : ByteArray) : List String :=
  let rows := (Text.rows (Text.ofBytes bytes).toList).map Text.trimEnd
  (rows.filter (! Text.allBlank ·)).map String.ofList

/-- The name of a signal, in brackets. -/
def signalLabel (n : Nat) : String :=
  if 1 ≤ n ∧ n ≤ 31 then " (SIG" ++ (if n = 16 then "STKFLT" else signalName n) ++ ")" else ""

/-- The program that a command names, or why it cannot be started. -/
def program (s : Store) (command : String) : Except String String :=
  let known (name : String) : Except String String :=
    if programs.contains name then .ok name
    else if Store.longestName < name.utf8ByteSize then .error Fault.nameTooLong.message
    else .error Fault.missing.message
  if command.contains '\x00' then .error "nul byte found in provided data"
  else if command = "." ∨ command = ".." then .error "Permission denied (os error 13)"
  else if command.contains '/' then
    match command.splitOn "/" with
    | ["", "bin", name] | ["", "usr", "bin", name] => known name
    | _ =>
      match s.place command with
      | .error fault => .error fault.message
      | .ok place =>
        if (s.node place).isSome then .error "Permission denied (os error 13)"
        else .error Fault.missing.message
  else known command

/-- The report on a command that did not end in time. -/
def overdue (c : LintConfig) : LintReport :=
  .fail ["linter '" ++ c.command ++ "' timed out after " ++ toString c.timeoutSecs ++ ".0s"]

/-- The report on a command by what is left of it. -/
def report (c : LintConfig) (a : Aftermath) : LintReport :=
  let failed (how : String) : LintReport :=
    match (issueLines a.output ++ issueLines a.errors).take maxIssues with
    | [] => .fail ["linter exited with " ++ how]
    | issues => .fail issues
  match a.ended with
  | some (.status 0) => .pass
  | some (.status n) => failed ("exit status: " ++ toString n)
  | some (.signal n) => failed ("signal: " ++ toString n ++ signalLabel n)
  | none => c.overdue

/-- The linter that runs the command. -/
def linter (c : LintConfig) : Linter := fun path s =>
  let args := c.arguments path
  let started := if args.any (·.contains '\x00') then .error "nul byte found in provided data"
    else program s c.command
  match started with
  | .error reason => (.fail ["failed to run linter '" ++ c.command ++ "': " ++ reason], s)
  | .ok name =>
    if c.timeoutSecs = 0 then (c.overdue, s)
    else
      let after := launch s (1000 * c.timeoutSecs) name (args.map raw)
      (c.report after, after.store)

end LintConfig

end Anchored
