import Anchored.Yaml.Token.Tag

/-!
# Scanning scalars

Line breaks within a plain or quoted scalar are folded: a single one becomes a space, and of
several the first is dropped. A block scalar keeps its lines, less their common indentation.
-/

namespace Anchored.Yaml

/-- The blanks and line breaks between two parts of a scalar. -/
structure Gap where
  /-- Blanks, if there was no break. -/
  blanks : List Char
  /-- The first break. -/
  first : List Char
  /-- The breaks after the first. -/
  more : List Char
  /-- A break was passed. -/
  broken : Bool

/-- A gap of nothing. -/
def Gap.empty : Gap :=
  ⟨[], [], [], false⟩

/-- What a gap stands for in a scalar. -/
def Gap.text (g : Gap) : List Char :=
  if g.broken then
    if g.first.head? = some '\n' then if g.more.isEmpty then [' '] else g.more
    else g.first ++ g.more
  else g.blanks

/-! ## Quoted scalars -/

/-- The character that a one-letter escape stands for. -/
def escape? : Char → Option Char
  | '0' => some '\x00'
  | 'a' => some '\x07'
  | 'b' => some '\x08'
  | 't' => some '\t'
  | '\t' => some '\t'
  | 'n' => some '\n'
  | 'v' => some '\x0b'
  | 'f' => some '\x0c'
  | 'r' => some '\r'
  | 'e' => some '\x1b'
  | ' ' => some ' '
  | '"' => some '"'
  | '/' => some '/'
  | '\\' => some '\\'
  | 'N' => some '\x85'
  | '_' => some '\xa0'
  | 'L' => some '\u2028'
  | 'P' => some '\u2029'
  | _ => none

/-- How many digits follow the letter of a numeric escape. -/
def escapeDigits? : Char → Option Nat
  | 'x' => some 2
  | 'u' => some 4
  | 'U' => some 8
  | _ => none

/-- Scans an escape; the cursor stands at its backslash. -/
def scanEscape (started : Mark) (c : Cursor) : Except Malformed (Char × Cursor) :=
  match (c.at? 1).bind escape?, (c.at? 1).bind escapeDigits? with
  | some x, _ => .ok (x, c.drop 2)
  | none, some n =>
    let c := c.drop 2
    match (c.rest.take n).mapM hexValue? with
    | some digits =>
      if digits.length < n then c.fail .expectedHex .quotedEscape started
      else
        let code := digits.foldl (fun v d => v * 16 + d) 0
        if (0xD800 ≤ code ∧ code ≤ 0xDFFF) ∨ 0x10FFFF < code then
          c.fail .badCodePoint .quotedEscape started
        else .ok (Char.ofNat code, c.drop n)
    | none => c.fail .expectedHex .quotedEscape started
  | none, none => c.fail .unknownEscape .quotedEscape started

/-- Scans the blanks and breaks at the cursor. Blanks after a break count for nothing; if `indent`
is given, a tab among them that stands further left is refused. -/
def scanGap (indent : Option (Int × Mark)) (fuel : Nat) (g : Gap) (c : Cursor) :
    Except Malformed (Gap × Cursor) :=
  match fuel, c.rest with
  | fuel + 1, x :: _ =>
    if isBlank x then
      match g.broken, indent with
      | false, _ => scanGap indent fuel { g with blanks := g.blanks ++ [x] } c.skip
      | true, some (column, started) =>
        if x = '\t' ∧ (c.mark.column : Int) < column then
          c.fail .tabInPlainIndent .plainScalar started
        else scanGap indent fuel g c.skip
      | true, none => scanGap indent fuel g c.skip
    else if isBreak x then
      let g := if g.broken then { g with more := g.more ++ c.breakText }
        else { g with blanks := [], first := c.breakText, broken := true }
      scanGap indent fuel g c.skipBreak
    else .ok (g, c)
  | _, _ => .ok (g, c)

/-- Scans the characters of a quoted scalar up to a blank, a break or the closing quote. The result
tells whether an escaped break ended them. -/
def scanQuotedRun (single : Bool) (started : Mark) (fuel : Nat) (c : Cursor) :
    Except Malformed (List Char × Bool × Cursor) :=
  match fuel, c.rest with
  | fuel + 1, x :: r =>
    if c.blankAt 0 then .ok ([], false, c)
    else if single ∧ x = '\'' ∧ r.head? = some '\'' then do
      let (chars, broken, c) ← scanQuotedRun single started fuel (c.drop 2)
      return ('\'' :: chars, broken, c)
    else if x = (if single then '\'' else '"') then .ok ([], false, c)
    else if ¬ single ∧ x = '\\' ∧ r.head?.any isBreak then .ok ([], true, c.skip.skipBreak)
    else if ¬ single ∧ x = '\\' then do
      let (y, c) ← scanEscape started c
      let (chars, broken, c) ← scanQuotedRun single started fuel c
      return (y :: chars, broken, c)
    else do
      let (chars, broken, c) ← scanQuotedRun single started fuel c.skip
      return (x :: chars, broken, c)
  | _, _ => .ok ([], false, c)

/-- Scans a quoted scalar up to and with its closing quote. -/
def scanQuotedBody (single : Bool) (started : Mark) (fuel : Nat) (c : Cursor) :
    Except Malformed (List Char × Cursor) :=
  match fuel with
  | 0 => c.fail .endOfStream .quotedScalar started
  | fuel + 1 => do
    if c.atDocumentMark Cursor.startMark ∨ c.atDocumentMark Cursor.endMark then
      c.fail .documentMark .quotedScalar started
    else if c.atEnd then c.fail .endOfStream .quotedScalar started
    else
      let (chars, broken, c) ← scanQuotedRun single started (c.left + 1) c
      if c.next (if single then '\'' else '"') then return (chars, c.skip)
      else
        let (gap, c) ← scanGap none c.left { Gap.empty with broken := broken } c
        let (rest, c) ← scanQuotedBody single started fuel c
        return (chars ++ gap.text ++ rest, c)

/-- Scans a quoted scalar. -/
def scanQuoted (single : Bool) (c : Cursor) : Except Malformed (Token × Cursor) := do
  let (text, after) ← scanQuotedBody single c.mark (c.left + 1) c.skip
  let style := if single then .singleQuoted else .doubleQuoted
  return (⟨.scalar text style, c.mark, after.mark⟩, after)

/-! ## Plain scalars -/

/-- The cursor stands at a character that ends a plain scalar. -/
def plainEnd (flow : Bool) (c : Cursor) : Bool :=
  (c.next ':' && c.blankAt 1) || (flow && c.nextIn [',', '[', ']', '\x7b', '\x7d'])

/-- Scans the characters of a plain scalar up to a blank, a break or its end. -/
def scanPlainRun (flow : Bool) (started : Mark) (fuel : Nat) (c : Cursor) :
    Except Malformed (List Char × Cursor) :=
  match fuel, c.rest with
  | fuel + 1, x :: r =>
    if c.blankAt 0 then .ok ([], c)
    else if flow ∧ x = ':' ∧ r.head?.any [',', '?', '[', ']', '\x7b', '\x7d'].contains then
      c.fail .unexpectedColon .plainScalar started
    else if plainEnd flow c then .ok ([], c)
    else do
      let (chars, c) ← scanPlainRun flow started fuel c.skip
      return (x :: chars, c)
  | _, _ => .ok ([], c)

/-- Scans the rest of a plain scalar after a gap. The result holds the text, where it ends, the
cursor past the gap after it, and whether that gap has a break. -/
def scanPlainBody (flow : Bool) (indent : Int) (started : Mark) (fuel : Nat) (gap : Gap)
    (stop : Mark) (c : Cursor) : Except Malformed (List Char × Mark × Bool × Cursor) :=
  match fuel with
  | 0 => .ok ([], stop, gap.broken, c)
  | fuel + 1 => do
    if c.atDocumentMark Cursor.startMark ∨ c.atDocumentMark Cursor.endMark ∨ c.next '#' then
      return ([], stop, gap.broken, c)
    else
      let (chars, after) ← scanPlainRun flow started (c.left + 1) c
      let text := if chars.isEmpty then [] else gap.text ++ chars
      let stop := if chars.isEmpty then stop else after.mark
      let gap := if chars.isEmpty then gap else Gap.empty
      if ! after.nextIs (fun x => isBlank x || isBreak x) then
        return (text, stop, gap.broken, after)
      else
        let (gap, c) ← scanGap (some (indent, started)) after.left gap after
        if ¬ flow ∧ (c.mark.column : Int) < indent then return (text, stop, gap.broken, c)
        else
          let (rest, stop, broken, c) ← scanPlainBody flow indent started fuel gap stop c
          return (text ++ rest, stop, broken, c)

/-- Scans a plain scalar. The result tells whether it was followed by a line break. -/
def scanPlain (flow : Bool) (indent : Int) (c : Cursor) :
    Except Malformed (Token × Bool × Cursor) := do
  let (text, stop, broken, after) ←
    scanPlainBody flow (indent + 1) c.mark (c.left + 1) Gap.empty c.mark c
  return (⟨.scalar text .plain, c.mark, stop⟩, broken, after)

/-! ## Block scalars -/

/-- What to do with the line breaks at the end of a block scalar. -/
inductive Chomping where
  | strip
  | clip
  | keep
  deriving DecidableEq, Repr

/-- Scans the indicators behind the sign of a block scalar: chomping and indentation, in either
order. -/
def scanBlockHeader (started : Mark) (c : Cursor) :
    Except Malformed (Chomping × Option Nat × Cursor) :=
  let chomping? (c : Cursor) : Option Chomping :=
    if c.next '+' then some .keep else if c.next '-' then some .strip else none
  let indent (c : Cursor) : Except Malformed (Option Nat × Cursor) :=
    match c.rest with
    | x :: _ =>
      if x = '0' then c.fail .zeroIndent .blockScalar started
      else if x.isDigit then .ok (some (x.toNat - '0'.toNat), c.skip)
      else .ok (none, c)
    | [] => .ok (none, c)
  match chomping? c with
  | some chomping => do
    let (n, c) ← indent c.skip
    return (chomping, n, c)
  | none => do
    let (n, c) ← indent c
    match n, chomping? c with
    | some n, some chomping => return (chomping, some n, c.skip)
    | n, _ => return (.clip, n, c)

/-- Scans the indentation and the empty lines in front of the next line of a block scalar. `widest`
is the deepest indentation seen. The result holds the breaks, the mark after the last of them, and
the deepest indentation. -/
def scanBlockBreaks (indent : Option Nat) (started : Mark) (fuel widest : Nat) (stop : Mark)
    (c : Cursor) : Except Malformed (List Char × Mark × Nat × Cursor) :=
  match fuel with
  | 0 => .ok ([], stop, widest, c)
  | fuel + 1 =>
    let spaces := c.takeWhile (· == ' ')
    let c := c.drop (match indent with
      | none => spaces.length
      | some n => min spaces.length (n - c.mark.column))
    let widest := max widest c.mark.column
    if c.next '\t' ∧ indent.all (c.mark.column < ·) then
      c.fail .tabInBlockIndent .blockScalar started
    else if ! c.nextIs isBreak then .ok ([], stop, widest, c)
    else do
      let after := c.skipBreak
      let (breaks, stop, widest, last) ←
        scanBlockBreaks indent started fuel widest after.mark after
      return (c.breakText ++ breaks, stop, widest, last)

/-- Scans the lines of a block scalar. `first` is the break that the line before ended with, `more`
the breaks after it, and `wasBlank` tells whether that line began with a blank. The result ends with
the breaks that no line follows. -/
def scanBlockLines (folded : Bool) (indent : Nat) (started : Mark) (fuel : Nat)
    (first more : List Char) (wasBlank : Bool) (stop : Mark) (c : Cursor) :
    Except Malformed (List Char × List Char × List Char × Mark × Cursor) :=
  match fuel with
  | 0 => .ok ([], first, more, stop, c)
  | fuel + 1 => do
    if c.mark.column ≠ indent ∨ c.atEnd then return ([], first, more, stop, c)
    else
      let blank := c.nextIs isBlank
      let joined :=
        if folded ∧ first.head? = some '\n' ∧ ¬ wasBlank ∧ ¬ blank then
          if more.isEmpty then [' '] else more
        else first ++ more
      let line := c.takeWhile (! isBreak ·)
      let ended := c.drop line.length
      let after := ended.skipBreak
      let (more, stop, _, c) ←
        scanBlockBreaks (some indent) started (after.left + 1) 0 after.mark after
      let (rest, last) ←
        scanBlockLines folded indent started fuel ended.breakText more blank stop c
      return (joined ++ line ++ rest, last)

/-- Scans a block scalar in a block of the given indentation. -/
def scanBlock (folded : Bool) (outer : Int) (c : Cursor) : Except Malformed (Token × Cursor) := do
  let started := c.mark
  let (chomping, increment, c) ← scanBlockHeader started c.skip
  let c := c.skipBlanks.skipComment
  if ! c.breakNext then c.fail .expectedLineEnd .blockScalar started
  else
    let c := c.skipBreak
    let given := increment.map fun n => (if 0 ≤ outer then outer.toNat else 0) + n
    let (more, stop, widest, c) ←
      scanBlockBreaks given started (c.left + 1) 0 c.mark c
    let indent := given.getD (max (max widest (outer + 1).toNat) 1)
    let (text, first, more, stop, c) ←
      scanBlockLines folded indent started (c.left + 1) [] more false stop c
    let tail := match chomping with
      | .strip => []
      | .clip => first
      | .keep => first ++ more
    return (⟨.scalar (text ++ tail) (if folded then .folded else .literal), started, stop⟩, c)

end Anchored.Yaml
