import Anchored.CommandLine.Run
import Anchored.CommandLine.Uuid

/-!
# The program

Loads the files that the arguments and the request name, makes the run on them, and writes back
those that it changed.
-/

namespace Anchored

/-- The place of a path, with single dots and empty names left out. -/
def Place.ofPath (path : String) : Place :=
  let (start, names) := Store.steps path
  start ++ names.filter fun name => name ≠ "" ∧ name ≠ "."

/-- What is at a path on disk. -/
def nodeAt (path : String) : IO (Option Node) := do
  try
    return some (.file (← IO.FS.readBinFile path))
  catch
    | .noFileOrDirectory .. => return none
    | _ => return some .directory

/-- The path of the directory that holds what a path names. -/
def parentPath (path : String) : String :=
  match (path.splitOn "/").dropLast with
  | [] => "."
  | [""] => "/"
  | names => "/".intercalate names

/-- The store with what is at some paths on disk. Where nothing is, there may still be a directory
to write to. -/
def loadPaths (s : Store) (paths : List String) : IO Store :=
  paths.foldlM (fun s path => do
    match ← nodeAt path with
    | some node => return s.install (.ofPath path) node
    | none =>
      match ← nodeAt (parentPath path) with
      | some .directory => return s.withParents (.ofPath path)
      | _ => return s) s

/-- Writes what a run changed. -/
def saveChanges (before after : Store) (paths : List String) : IO Unit :=
  paths.forM fun path => do
    let place := Place.ofPath path
    if before.node place ≠ after.node place then
      match after.node place with
      | some (.file bytes) => IO.FS.writeBinFile path bytes
      | _ => return

/-- The path of the file that is to be edited. -/
def targetPath (w : CommandLine.Surroundings) (s : Store) (a : CommandLine.Arguments) :
    List String :=
  match CommandLine.buildRequest w s a with
  | .ok request => [request.path]
  | .error _ => []

end Anchored

open Anchored in
/-- Makes one run of the command line. -/
def main (args : List String) : IO UInt32 := do
  let random ← IO.getRandomBytes 16
  let fresh := CommandLine.identifier random.toList
  match CommandLine.Invocation.read args with
  | .run a =>
    let needsInput := a.find.isNone && a.replace.isNone && a.request.isNone
    let input ← if needsInput then (← IO.getStdin).readBinToEnd else pure .empty
    let w : CommandLine.Surroundings := ⟨input, fresh⟩
    let named := [a.config, a.request, a.file, a.output].filterMap id
    let s ← loadPaths .empty named
    let target := targetPath w s a
    let s ← loadPaths s target
    let outcome := CommandLine.runWith w s a
    saveChanges s outcome.store (named ++ target)
    IO.print outcome.output
    return outcome.exitCode.toUInt32
  | _ =>
    let outcome := CommandLine.run args ⟨.empty, fresh⟩ .empty
    IO.print outcome.output
    return outcome.exitCode.toUInt32
