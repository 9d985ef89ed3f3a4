import Anchored.Disk.Fault
import Anchored.Text.Blank

/-!
# The files

A store says what is at every place: a file with its bytes, a directory, or nothing. Paths are
resolved step by step through directories, as a file system without links does it. A write
replaces a file in full, unless the store has a limit: then a longer content is cut to the limit
and the write fails, so that the file holds neither the old nor the new bytes.

This is less than a file system is. There are no links, so that a file is at one place only; nothing
is known of the directory in which the working directory lies, so that the places below `"/"` are
others than those below the working directory; and there are no permissions and no special files, so
that whatever is there can be read and, up to the limit, written. What is proved of the files in a
store is proved for these circumstances.
-/

namespace Anchored

/-- A place in the tree of directories: the names on the way to it. The working directory is the
empty list; places that start with `"/"` lie outside of it. -/
abbrev Place := List String

/-- What can be at a place. -/
inductive Node where
  | file (bytes : ByteArray)
  | directory

/-- Files are equal if their bytes are. -/
instance : DecidableEq Node
  | .file a, .file b =>
    if h : a.data.toList = b.data.toList then
      isTrue (congrArg Node.file (ByteArray.ext (Array.toList_inj.mp h)))
    else isFalse fun e => h (by cases e; rfl)
  | .directory, .directory => isTrue rfl
  | .file _, .directory => isFalse nofun
  | .directory, .file _ => isFalse nofun

/-- All files and directories. -/
structure Store where
  /-- What is there, with the last place that something was put at in front. -/
  entries : List (Place × Node)
  /-- The size in bytes past which no file can grow. -/
  limit : Option Nat

namespace Store

/-- A working directory with nothing in it. -/
def empty : Store where
  entries := [([], .directory)]
  limit := none

/-- What is at a place. -/
def node (s : Store) (place : Place) : Option Node :=
  s.entries.lookup place

/-- The store with `n` at a place. -/
def put (s : Store) (place : Place) (n : Option Node) : Store :=
  { s with entries := n.toList.map (place, ·) ++ s.entries.filter fun e => e.1 ≠ place }

/-- A place holds what was put there, and all others what they held. -/
@[simp]
theorem node_put (s : Store) (place other : Place) (n : Option Node) :
    (s.put place n).node other = if other = place then n else s.node other := by
  have kept (l : List (Place × Node)) :
      (l.filter fun e => e.1 ≠ place).lookup other =
        if other = place then none else l.lookup other := by
    induction l with
    | nil => simp
    | cons e l ih =>
      by_cases h : e.1 = place <;> by_cases ho : other = e.1 <;> grind
  cases n <;> by_cases h : other = place <;> grind [put, node]

/-- The names in a directory. -/
def names (s : Store) (directory : Place) : List String :=
  s.entries.filterMap fun (place, _) =>
    if place ≠ [] ∧ place.dropLast = directory then place.getLast? else none

/-- The longest name of a file or directory, in bytes. -/
def longestName : Nat :=
  255

/-- Follows names from a place. Every place that a name is looked up in must be a directory. The
root is its own parent. -/
def follow (s : Store) (here : Place) : List String → Except Fault Place
  | [] => .ok here
  | name :: names =>
    match s.node here with
    | none => .error .missing
    | some (.file _) => .error .notDirectory
    | some .directory =>
      if name = "" ∨ name = "." then s.follow here names
      else if name = ".." then
        if here = [] then .error .missing
        else s.follow (if here = ["/"] then here else here.dropLast) names
      else if longestName < name.utf8ByteSize then .error .nameTooLong
      else s.follow (here ++ [name]) names

/-- Where a path starts, and the names on it. -/
def steps (path : String) : Place × List String :=
  match (Text.splitWhere (· == '/') path.toList).map String.ofList with
  | "" :: names => (["/"], names)
  | names => ([], names)

/-- The length in bytes from which on a path is refused before anything is looked up. -/
def pathLimit : Nat :=
  4096

/-- What is wrong with the spelling of a path. -/
def spellingFault? (path : String) : Option Fault :=
  if path = "" then some .missing
  else if path.toList.contains '\x00' then some .nulInPath
  else if pathLimit ≤ path.utf8ByteSize then some .nameTooLong
  else none

/-- The place that a path names, whether or not something is there. -/
def place (s : Store) (path : String) : Except Fault Place :=
  match spellingFault? path with
  | some fault => .error fault
  | none =>
    let (start, names) := steps path
    s.follow start names

/-- The bytes of the file at a path. -/
def bytes (s : Store) (path : String) : Except Fault ByteArray := do
  match s.node (← s.place path) with
  | none => .error .missing
  | some .directory => .error .directory
  | some (.file bytes) => .ok bytes

/-- There is a regular file at the path. -/
def isFile (s : Store) (path : String) : Bool :=
  (s.bytes path).toBool

/-- The text in the file at a path. -/
def text (s : Store) (path : String) : Except Fault String := do
  match String.fromUTF8? (← s.bytes path) with
  | some text => .ok text
  | none => .error .notText

/-- The place at which names that are followed from a place lead to a file, which is there or can
be created. Names whose last one is empty, a dot or two dots can only name a directory: empty ones
at the end are passed over, and of the rest all but the last are followed. -/
def fileTarget (s : Store) (start : Place) (names : List String) : Except Fault Place := do
  let solid := (names.reverse.dropWhile (· = "")).reverse
  if solid ≠ names ∨ solid.getLast? = some "." ∨ solid.getLast? = some ".." then
    let parent ← s.follow start solid.dropLast
    match s.node parent with
    | some (.file _) => .error .notDirectory
    | some .directory => .error .directory
    | none => .error (if parent = start then .directory else .missing)
  else
    let place ← s.follow start names
    match s.node place with
    | some .directory => .error .directory
    | _ => .ok place

/-- The place at which a write to a path creates or replaces a file. -/
def target (s : Store) (path : String) : Except Fault Place :=
  match spellingFault? path with
  | some fault => .error fault
  | none =>
    let (start, names) := steps path
    s.fileTarget start names

/-- Replaces what the file at a path holds, and creates it if there is none. Past the limit only
the first bytes arrive. -/
def write (s : Store) (path : String) (content : String) : Except Fault Unit × Store :=
  match s.target path with
  | .error fault => (.error fault, s)
  | .ok place =>
    let bytes := content.toUTF8
    match s.limit with
    | some limit =>
      if limit < bytes.size then
        (.error .tooLarge, s.put place (some (.file (bytes.extract 0 limit))))
      else (.ok (), s.put place (some (.file bytes)))
    | none => (.ok (), s.put place (some (.file bytes)))

/-- A store in which every place that leads to `place` is a directory. -/
def withParents (s : Store) (place : Place) : Store :=
  (List.range place.length).foldl (fun s n =>
    let parent := place.take n
    if s.node parent = none then s.put parent (some .directory) else s) s

/-- Puts a file or directory at a place, with the directories that lead to it. No limit stands in
the way. -/
def install (s : Store) (place : Place) (n : Node) : Store :=
  (s.withParents place).put place (some n)

end Store

end Anchored
