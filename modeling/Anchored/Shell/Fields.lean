import Anchored.Shell.Machine
import Anchored.Shell.Pattern

/-!
# Fields

What the words of a command expand to is divided into fields where separators stand in the value of
an expansion that is not quoted. A field that is a pattern stands for the paths that it matches.
-/

namespace Anchored.Shell

/-- A piece of what a word expands to. -/
inductive Fragment where
  /-- A letter may be quoted, and a separator among letters may divide fields. -/
  | letter (c : Char) (quoted divides : Bool)
  /-- There is a quotation, if only an empty one. -/
  | mark
  /-- A value starts. Where it is `whole`, nothing but a gap divides it. -/
  | seam (whole : Bool)
  /-- What is between two arguments. -/
  | gap
  deriving DecidableEq, Repr

namespace Fragment

/-- The letters of a text that nothing divides. -/
def fixed (text : String) : List Fragment :=
  text.toList.map fun c => .letter c true false

/-- The letters of a value. -/
def value (quoted : Bool) (text : String) : List Fragment :=
  if quoted then fixed text
  else .seam false :: text.toList.map fun c => .letter c false true

/-- The text of the letters. -/
def text (fs : List Fragment) : String :=
  String.ofList (fs.filterMap fun
    | .letter c _ _ => some c
    | _ => none)

/-- The pattern that the letters write, in which quoted letters stand for themselves. -/
def pattern : Bool → List Fragment → List Char
  | _, [] => []
  | escaped, .letter c true _ :: rest =>
    if escaped then c :: pattern false rest else '\\' :: c :: pattern false rest
  | escaped, .letter c false _ :: rest => c :: pattern (c = '\\' && ! escaped) rest
  | escaped, _ :: rest => pattern escaped rest

/-- Without such a letter there is no pattern. -/
def isMagic : Fragment → Bool
  | .letter c false _ => c == '*' || c == '?' || c == '['
  | _ => false

end Fragment

/-! ## Division -/

/-- Fields while they are divided. -/
structure Division where
  separators : List Char
  /-- The fields that may still end, if there is a limit. -/
  remaining : Option Nat
  /-- The fields that ended, the last one first. -/
  done : List (List Fragment)
  /-- What is in the open field, the last one first. -/
  current : List Fragment
  /-- What of it is left if no more letters come: the last field loses the blanks at its end. -/
  kept : Option (List Fragment)
  /-- A blank ended the last field. -/
  blank : Bool
  /-- The value is whole; and so is the one before. -/
  whole : Bool
  wholeBefore : Bool

namespace Division

/-- The character is a blank if it is a separator. -/
def isBlank (c : Char) : Bool :=
  c == ' ' || c == '\t' || c == '\n'

/-- Puts a letter that may divide into the last field that is allowed. -/
def addLast (d : Division) (f : Fragment) (separates blank : Bool) : Division :=
  let longer := { d with current := f :: d.current }
  if blank then { longer with kept := some (d.kept.getD d.current) }
  else
    { longer with
      kept := if separates && d.blank then d.kept else none
      blank := false }

/-- Goes on with a letter that may divide, or with a gap. -/
def addLetter (d : Division) (f : Fragment) (separates blank : Bool) : Division :=
  if d.remaining = some 0 then d.addLast f separates blank
  else if d.blank then
    if separates then { d with current := [], blank }
    else { d with current := [f], blank := false }
  else if separates then
    let d := if d.whole || d.wholeBefore then d else { d with blank }
    if d.current.isEmpty && d.blank then { d with blank := false }
    else
      let remaining := d.remaining.map (· - 1)
      if remaining = some 0 then
        { d with remaining, kept := some d.current, current := f :: d.current }
      else { d with remaining, done := d.current.reverse :: d.done, current := [] }
  else { d with current := f :: d.current, blank := false }

/-- Goes on with a fragment. -/
def add (d : Division) (f : Fragment) : Division :=
  match f with
  | .letter c _ true =>
    let separates := ! d.whole && d.separators.contains c
    d.addLetter f separates (separates && isBlank c)
  | .letter _ _ false | .mark => { d with current := f :: d.current }
  | .seam whole => { d with whole, wholeBefore := d.whole, blank := false }
  | .gap => d.addLetter f true true

/-- All fields. -/
def fields (d : Division) : List (List Fragment) :=
  let last := d.kept.getD d.current
  (if d.whole || ! last.isEmpty then last.reverse :: d.done else d.done).reverse

end Division

/-- The fields of fragments, no more than `limit`. -/
def divide (separators : String) (limit : Option Nat) (fs : List Fragment) :
    List (List Fragment) :=
  (fs.foldl Division.add
    ⟨separators.toList, limit, [], [], none, false, false, false⟩).fields

/-! ## Paths -/

/-- A pattern for a path, cut at its slashes. -/
def components (t : List Char) : List (List Char) :=
  t.splitOn '/'

/-- A pattern with its letters standing for themselves. -/
def unescaped : List Char → List Char
  | '\\' :: c :: rest => c :: unescaped rest
  | c :: rest => c :: unescaped rest
  | [] => []

/-- The names in the directory at a path that a pattern matches. Names that start with a dot have
to be asked for. -/
def Machine.matching (m : Machine) (directory : String) (pattern : List Char) : List String :=
  match m.place (if directory = "" then "." else directory) with
  | .error _ => []
  | .ok place =>
    if m.store.node place ≠ some .directory then []
    else
      let names := "." :: ".." :: (m.store.names place).map raw
      let dotted := (unescaped pattern).head? == some '.'
      names.filter fun name =>
        (dotted || ! name.startsWith ".") && (Pattern.ofText pattern).accepts name.toList

/-- The paths that start with a text and go on as the patterns say. -/
def Machine.paths (m : Machine) (start : String) : List (List Char) → List String
  | [] => if (m.node? start).isSome then [start] else []
  | pattern :: rest =>
    let slash := if rest.isEmpty then "" else "/"
    if (Pattern.ofText pattern).isProper then
      (m.matching start pattern).flatMap fun name =>
        if rest.isEmpty then [start ++ name] else m.paths (start ++ name ++ slash) rest
    else m.paths (start ++ String.ofList (unescaped pattern) ++ slash) rest

/-- What a field stands for: the paths that it matches, if it is a pattern and matches any, and its
text otherwise. -/
def Machine.globbed (m : Machine) (field : List Fragment) : List String :=
  if m.env.options.contains 'f' ∨ ! field.any Fragment.isMagic then [Fragment.text field]
  else
    let parts := components (Fragment.pattern false field)
    let found := if parts.any fun p => (Pattern.ofText p).isProper then m.paths "" parts else []
    if found.isEmpty then [Fragment.text field] else found.mergeSort fun a b => a ≤ b

end Anchored.Shell
