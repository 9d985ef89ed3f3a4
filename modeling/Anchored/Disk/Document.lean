import Anchored.Checksum
import Anchored.Disk.Store

/-!
# Whole files as texts

The only ways in which an editor touches a file: it reads one whole, as a text, and it writes one
whole.
-/

namespace Anchored

/-- A file read as a text. -/
structure Document where
  /-- The path, as the caller gave it. -/
  path : String
  content : String
  /-- The checksum of the content. -/
  checksum : String
  deriving DecidableEq, Repr

/-- Reads the regular file at a path as a text. A file of a store can always be read, so that the
case of any other fault than `notText` does not occur here (`Document.read_cases`). -/
def Document.read (s : Store) (path : String) : Except FileError Document :=
  if s.isFile path then
    match s.text path with
    | .ok content => .ok ⟨path, content, Anchored.checksum content⟩
    | .error .notText => .error (.notText path)
    | .error reason => .error (.fault path reason)
  else .error (.notFound path)

/-- Writes a file in full. -/
def Document.write (s : Store) (path content : String) : Except FileError Unit × Store :=
  match s.write path content with
  | (.ok (), after) => (.ok (), after)
  | (.error reason, after) => (.error (.fault path reason), after)

end Anchored
