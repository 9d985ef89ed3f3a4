import Anchored.EditError
import Anchored.Text.Lines
import Anchored.Text.Normal
import Anchored.Text.Occurrence

/-!
# Finding the place that an anchor names

An anchor is a block of text that must occur exactly once in a file. A strict anchor is compared
byte by byte. A lenient one is compared on normal forms: it must occur once in the normal form of
the content (or, if nowhere, in the content with every run of blanks collapsed), and that
occurrence must lie in the one range of whole lines that agrees with the anchor line by line.
`locateUnique` is the only gate between a request and a replacement.
-/

namespace Anchored

/-- How an anchor is compared with the content of a file. -/
inductive MatchMode where
  /-- Byte by byte. -/
  | strict
  /-- By whole lines, without regard to tabs, line endings and blanks at the ends of lines. -/
  | fuzzy
  deriving DecidableEq, Repr

/-- The mode that a switch for strictness picks. -/
def MatchMode.ofStrict (strict : Bool) : MatchMode :=
  if strict then .strict else .fuzzy

/-- A range of lines, counted from zero, both ends included. -/
structure LineRange where
  first : Nat
  last : Nat
  deriving DecidableEq, Repr

/-- Every line of `inner` is one of `outer`. -/
def LineRange.covers (outer inner : LineRange) : Bool :=
  outer.first ≤ inner.first && inner.last ≤ outer.last

namespace Anchor

open Text

/-! ## Occurrences in the normal form -/

/-- Characters `sep` before byte `n`. -/
def countBefore (sep : Char) (t : List Char) (n : Nat) : Nat :=
  (takeBytes n t).count sep

/-- First and last line of every occurrence of the normal form of `find` in that of `content`. -/
def normalHits (content find : List Char) : List LineRange :=
  let text := normalize content
  let needle := normalize find
  if allBlank needle then []
  else (occurrences text needle).map fun start =>
    ⟨countBefore '\n' text start, countBefore '\n' text (start + byteSize needle - 1)⟩

/-- The words of a text's normal lines, each with the number of its line. -/
def numberedWords (content : List Char) : List (Nat × List Char) :=
  (splitWhere (· == '\n') (normalize content)).zipIdx.flatMap fun (line, n) =>
    (words line).map fun word => (n, word)

/-- First and last line of every occurrence of the collapsed `find` in the collapsed `content`. -/
def collapsedHits (content find : List Char) : List LineRange :=
  let tokens := numberedWords content
  let text := [' '].intercalate (tokens.map (·.2))
  let needle := collapse find
  let lineAt := fun n => ((tokens[countBefore ' ' text n]?).map (·.1)).getD 0
  (occurrences text needle).map fun start =>
    ⟨lineAt start, lineAt (start + byteSize needle - 1)⟩

/-- First and last line of every lenient occurrence of `find`: in the normal form, or else in the
collapsed text. -/
def hits (content find : List Char) : List LineRange :=
  match normalHits content find with
  | [] => collapsedHits content find
  | found => found

/-! ## Whole lines -/

/-- The normal lines of an anchor; a final terminator does not add an empty line. -/
def anchorLines (find : List Char) : List (List Char) :=
  let lines := normalLines find
  if endsWithTerminator find then lines.dropLast else lines

/-- A line of a file that agrees with a line of an anchor, indentation included. -/
def agrees (line wanted : List Char) : Bool :=
  trimEnd (expandTabs line) == wanted

/-- A line of a file that agrees with a line of an anchor but for indentation. -/
def agreesUnindented (line wanted : List Char) : Bool :=
  trim line == trimStart wanted

/-- The first lines agree one by one with the wanted ones. -/
def windowAgrees (agree : List Char → List Char → Bool) (wanted lines : List (List Char)) : Bool :=
  wanted.length ≤ lines.length && (lines.zip wanted).all fun (line, want) => agree line want

/-- The ranges of lines that agree with the wanted ones, taken from the top, each starting after
the end of the one before. `n` is the number of the first line. -/
def scan (agree : List Char → List Char → Bool) (wanted : List (List Char)) (n : Nat)
    (lines : List (List Char)) : List LineRange :=
  match lines with
  | [] => []
  | _ :: rest =>
    if wanted ≠ [] ∧ windowAgrees agree wanted lines then
      ⟨n, n + wanted.length - 1⟩ ::
        scan agree wanted (n + wanted.length) (rest.drop (wanted.length - 1))
    else scan agree wanted (n + 1) rest
termination_by lines.length
decreasing_by
  all_goals simp only [List.length_drop, List.length_cons]
  all_goals omega

/-- The ranges of lines that agree with an anchor; only if there is none, those that agree but for
indentation. An anchor of blank lines agrees with nothing. -/
def locateLines (content find : List Char) : List LineRange :=
  let wanted := anchorLines find
  let texts := (lines content).map (·.text)
  if wanted.all allBlank then []
  else match scan agrees wanted 0 texts with
    | [] => scan agreesUnindented wanted 0 texts
    | found => found

/-- The span of a range of lines. It takes in the last line's terminator only if the anchor ends
with one. -/
def rangeSpan (content find : List Char) (range : LineRange) : Span :=
  let spans := lineSpans content
  let start := ((spans[range.first]?).map (·.start)).getD 0
  let stop := ((spans[range.last]?).map (·.stop)).getD 0
  ⟨start, if endsWithTerminator find then terminatorEnd content stop else stop⟩

end Anchor

open Anchor

/-- How often an anchor occurs, overlapping occurrences included. -/
def countMatches (content find : String) : MatchMode → Nat
  | .strict => (Text.occurrences content.toList find.toList).length
  | .fuzzy => (hits content.toList find.toList).length

/-- The span of every range of whole lines that agrees with an anchor. -/
def locate (content find : String) : List Span :=
  (locateLines content.toList find.toList).map (rangeSpan content.toList find.toList)

/-- The range of lines that a lenient anchor names, or how often it was found instead: there must
be one occurrence and one range, and the range must hold the occurrence. -/
def uniqueRange (content find : List Char) : Except Nat LineRange :=
  match hits content find with
  | [hit] =>
    let (holding, others) := (locateLines content find).partition (·.covers hit)
    match holding, others.length with
    | [range], 0 => .ok range
    | [], 0 => .error 0
    | _, n => .error (1 + n)
  | found => .error found.length

/-- The one span that an anchor names. Any number of occurrences but one is an error. -/
def locateUnique (path content find : String) : MatchMode → Except EditError Span
  | .strict =>
    match Text.occurrences content.toList find.toList with
    | [start] => .ok ⟨start, start + find.utf8ByteSize⟩
    | found => .error (.ofCount path find found.length)
  | .fuzzy =>
    match uniqueRange content.toList find.toList with
    | .ok range => .ok (rangeSpan content.toList find.toList range)
    | .error count => .error (.ofCount path find count)

end Anchored
