import Anchored.Parsing.Lookahead

/-!
# Layout of Python

Lines, indentation and the inside of strings cannot be told by a pattern: what a character means
depends on the lines before it, or on the string it stands in. The layout knows the indentation of
the blocks that are open and the strings that are, and shows where a line ends, where a block starts
and ends, and what belongs to a string.
-/

namespace Anchored.Python

open Parsing

/-- How an open string ends and is read. -/
structure Quote where
  mark : Char
  /-- The mark stands three times at either end. -/
  triple : Bool
  /-- The string holds expressions in braces. -/
  format : Bool
  raw : Bool
  bytes : Bool
  deriving DecidableEq, Repr, Inhabited

/-- What is open at a place of a text. -/
structure Layout where
  /-- The last string that was opened holds expressions, and no string was closed since. -/
  inFormat : Bool
  /-- The open strings, the innermost first. -/
  strings : List Quote
  /-- The indentation of the open blocks, the innermost first. -/
  indents : List Nat
  deriving DecidableEq, Repr, Inhabited

/-- The tokens that the layout shows or depends on, in the order of the grammar. -/
inductive Mark where
  | newline
  | indent
  | dedent
  | stringStart
  | stringContent
  | doubledBrace
  | stringEnd
  | comment
  | closeBracket
  | closeParenthesis
  | closeBrace
  | handler
  deriving DecidableEq, Repr

/-- Indentation is kept as a byte. -/
def indentModulus : Nat := 256

/-- The columns of a tabulator. -/
def tabWidth : Nat := 8

/-- What the inside of a string comes to. -/
inductive Inside where
  /-- Text up to a place. -/
  | text (stop : Nat)
  /-- The end of the string. -/
  | close (stop : Nat)
  /-- Something that is not of the string's text. -/
  | other
  /-- No more characters. -/
  | unclosed (stop : Nat)

/-- Reads the inside of a string, where `any` says that there was text before. -/
def inside (s : Source) (q : Quote) : Nat → Nat → Bool → Inside
  | 0, i, _ => .unclosed i
  | limit + 1, i, any =>
    let c := s.at_ i
    let whatIs : Inside := if any then .text i else .other
    if c = '\x00' then .unclosed i
    else if (c = '\x7b' || c = '\x7d') && q.format then whatIs
    else if c = '\\' then
      if q.raw then
        let j := i + 1
        let j := if s.at_ j = q.mark || s.at_ j = '\\' then j + 1 else j
        let j := if s.at_ j = '\x0d' then j + 1 else j
        inside s q limit (if s.at_ j = '\n' then j + 1 else j) any
      else if q.bytes && ['N', 'u', 'U'].contains (s.at_ (i + 1)) then
        inside s q limit (min (i + 3) s.size) true
      else whatIs
    else if c = q.mark then
      if q.triple then
        if s.at_ (i + 1) = q.mark then
          if s.at_ (i + 2) = q.mark then if any then .text i else .close (i + 3)
          else .text (i + 2)
        else .text (i + 1)
      else if any then .text i
      else .close (i + 1)
    else if c = '\n' && any && !q.triple then .other
    else inside s q limit (i + 1) true

/-- What stands before the next token of a line. -/
structure Margin where
  position : Nat
  /-- Where the last skipped character ends. -/
  start : Nat
  /-- A line ended, or the text. -/
  lineEnded : Bool
  indent : Nat
  /-- The indentation of the first comment. -/
  comment : Option Nat

/-- The place after the characters up to the end of the line. -/
def lineStop (s : Source) : Nat → Nat → Nat
  | 0, i => i
  | limit + 1, i => if s.at_ i = '\x00' || s.at_ i = '\n' then i else lineStop s limit (i + 1)

/-- Skips blanks and lines, and comments where the layout looks for tokens of its own; `none` where
a comment or a backslash belongs to the line. -/
def margin (s : Source) (comments : Bool) : Nat → Margin → Option Margin
  | 0, m => some m
  | limit + 1, m =>
    let c := s.at_ m.position
    let after (n : Nat) (m : Margin) : Margin := { m with position := n, start := n }
    let next := m.position + 1
    if c = '\n' then
      margin s comments limit (after next { m with lineEnded := true, indent := 0 })
    else if c = ' ' then margin s comments limit (after next { m with indent := m.indent + 1 })
    else if c = '\x0d' || c = '\x0c' then
      margin s comments limit (after next { m with indent := 0 })
    else if c = '\t' then
      margin s comments limit (after next { m with indent := m.indent + tabWidth })
    else if c = '#' && comments then
      if !m.lineEnded then none
      else
        let stop := min (lineStop s s.size m.position + 1) s.size
        margin s comments limit
          (after stop { m with comment := m.comment.or (some m.indent), indent := 0 })
    else if c = '\\' then
      let next := if s.at_ next = '\x0d' then next + 1 else next
      if s.at_ next = '\n' || s.size ≤ next then
        margin s comments limit (after (min (next + 1) s.size) m)
      else none
    else if s.size ≤ m.position then some { m with lineEnded := true, indent := 0 }
    else some m

/-- The letters before a quotation mark, and what they say of the string. -/
def stringLetters (s : Source) : Nat → Nat → Quote → Nat × Quote
  | 0, i, q => (i, q)
  | limit + 1, i, q =>
    match (s.at_ i).toLower with
    | 'f' => stringLetters s limit (i + 1) { q with format := true }
    | 'r' => stringLetters s limit (i + 1) { q with raw := true }
    | 'b' => stringLetters s limit (i + 1) { q with bytes := true }
    | 'u' => stringLetters s limit (i + 1) q
    | _ => (i, q)

/-- The start of a string, and where it stops. -/
def stringStart? (s : Source) (i : Nat) : Option (Quote × Nat) :=
  let (i, q) := stringLetters s s.size i ⟨'"', false, false, false, false⟩
  let c := s.at_ i
  if c = '\x60' then some ({ q with mark := c }, i + 1)
  else if c = '"' || c = '\'' then
    let triple := s.at_ (i + 1) = c && s.at_ (i + 2) = c
    some ({ q with mark := c, triple }, if triple then i + 3 else i + 1)
  else none

/-- A token that the layout shows. A token that stops before what was skipped has no characters. -/
def shows (mark : Mark) (layout : Layout) (start stop : Nat) : Found Layout :=
  ⟨mark.ctorIdx, layout, min start stop, stop⟩

/-- Looks for a line's end, the start or end of a block, or the start of a string; what is skipped
before it starts at `stop`. -/
def lineToken (s : Source) (wants : Mark → Bool) (before : Layout) (recovering : Bool)
    (start stop : Nat) : Option (Found Layout) := do
  let within := wants .closeBracket || wants .closeParenthesis || wants .closeBrace
  let comments := wants .indent || wants .dedent || wants .newline || wants .handler
  let m ← margin s comments (s.size + 2) ⟨stop, start, false, 0, none⟩
  let current := before.indents.headD 0
  let quote := ['"', '\'', '\x60'].contains (s.at_ m.position)
  let mayDedent := wants .dedent ||
    (!wants .newline && !(wants .stringStart && quote) && !within)
  if m.lineEnded && wants .indent && current < m.indent then
    some (shows .indent
      { before with indents := m.indent % indentModulus :: before.indents } m.start stop)
  else if m.lineEnded && mayDedent && m.indent < current && !before.inFormat &&
      m.comment.all (· < current) then
    some (shows .dedent { before with indents := before.indents.tail } m.start stop)
  else if m.lineEnded && wants .newline && !recovering then
    some (shows .newline before m.start stop)
  else if m.comment.isNone && wants .stringStart then
    let (q, stop) ← stringStart? s m.position
    some (shows .stringStart
      { before with inFormat := q.format, strings := q :: before.strings } m.start stop)
  else none

/-- Looks for a token that the layout shows. Where everything is wanted, which is so after an error,
strings are left alone and lines do not end. -/
def scan : Scan Layout := fun s start wanted before =>
  let layout := before.getD ⟨false, [], []⟩
  let wants (m : Mark) := wanted m.ctorIdx
  let recovering := wants .stringContent && wants .indent
  let c := s.at_ start
  match layout.strings with
  | [] => lineToken s wants layout recovering start start
  | q :: rest =>
    if wants .doubledBrace && (c = '\x7b' || c = '\x7d') && !recovering && q.format then
      if s.at_ (start + 1) = c then some (shows .doubledBrace layout start (start + 2)) else none
    else if wants .stringContent && !recovering then
      match inside s q (s.size + 1) start false with
      | .text stop => some (shows .stringContent layout start stop)
      | .close stop =>
        some (shows .stringEnd { layout with inFormat := false, strings := rest } start stop)
      | .other => none
      | .unclosed stop => lineToken s wants layout recovering start stop
    else lineToken s wants layout recovering start start

end Anchored.Python
