import Anchored.Yaml.Cursor
import Anchored.Yaml.Token.Basic

/-!
# Scanning directives, anchors and tags
-/

namespace Anchored.Yaml

/-- The value of a hexadecimal digit. -/
def hexValue? (c : Char) : Option Nat :=
  if c.isDigit then some (c.toNat - '0'.toNat)
  else if 'a' ≤ c ∧ c ≤ 'f' then some (c.toNat - 'a'.toNat + 10)
  else if 'A' ≤ c ∧ c ≤ 'F' then some (c.toNat - 'A'.toNat + 10)
  else none

/-! ## Anchors and aliases -/

/-- Scans the name of an anchor or alias, past the sign in front of it. -/
def scanAnchor (context : Context) (c : Cursor) : Except Malformed (List Char × Cursor) :=
  let name := c.skip.takeWhile isNameChar
  let after := c.skip.drop name.length
  if name.isEmpty ∨ ¬ (after.blankAt 0 ∨
      after.nextIn ['?', ':', ',', ']', '\x7d', '%', '@', '\x60']) then
    after.fail .expectedAnchorName context c.mark
  else .ok (name, after)

/-! ## Tags -/

/-- The character may stand in a tag; some may do so only between angle brackets. -/
def isUriChar (bracketed : Bool) (c : Char) : Bool :=
  isNameChar c ||
    [';', '/', '?', ':', '@', '&', '=', '+', '$', '.', '%', '!', '~', '*', '\'', '(',
      ')'].contains c ||
    (bracketed && [',', '[', ']'].contains c)

/-- How many octets a character has whose first octet is given. -/
def octetWidth (octet : Nat) : Nat :=
  if octet < 0x80 then 1
  else if octet / 0x20 = 6 then 2
  else if octet / 0x10 = 14 then 3
  else if octet / 0x08 = 30 then 4
  else 0

/-- Scans the escaped octets of one character, of which `left` are to come after the first. -/
def scanOctets (context : Context) (started : Mark) (first : Bool) (left : Nat) (c : Cursor) :
    Except Malformed (List UInt8 × Cursor) :=
  match left with
  | 0 => .ok ([], c)
  | left + 1 =>
    match c.next '%', (c.at? 1).bind hexValue?, (c.at? 2).bind hexValue? with
    | true, some a, some b =>
      let octet := a * 16 + b
      if first ∧ octetWidth octet = 0 then c.fail .badLeadingOctet context started
      else if ¬ first ∧ octet / 0x40 ≠ 2 then c.fail .badTrailingOctet context started
      else do
        let (octets, c) ← scanOctets context started false
          (if first then octetWidth octet - 1 else left) (c.drop 3)
        return (UInt8.ofNat octet :: octets, c)
    | _, _, _ => c.fail .expectedUriOctet context started
termination_by (if first then 1 else 0, left)
decreasing_by
  all_goals cases first <;> simp_all [Prod.lex_def]

/-- Scans the characters of a tag. An octet that is escaped counts as one. -/
def scanUriChars (bracketed : Bool) (context : Context) (started : Mark) (fuel : Nat) (c : Cursor) :
    Except Malformed (List Char × Cursor) :=
  match fuel, c.rest with
  | fuel + 1, x :: _ =>
    if ! isUriChar bracketed x then .ok ([], c)
    else if x = '%' then do
      let (octets, c) ← scanOctets context started true 1 c
      let (chars, c) ← scanUriChars bracketed context started fuel c
      return (octets.map (fun octet => Char.ofNat octet.toNat) ++ chars, c)
    else do
      let (chars, c) ← scanUriChars bracketed context started fuel c.skip
      return (x :: chars, c)
  | _, _ => .ok ([], c)

/-- Scans a tag or the rest of one, of which `head` was already scanned. The sign in front of the
head is no part of the tag. -/
def scanUri (bracketed : Bool) (context : Context) (head : List Char) (started : Mark)
    (c : Cursor) : Except Malformed (List Char × Cursor) := do
  let (chars, after) ← scanUriChars bracketed context started c.left c
  if head.isEmpty ∧ after.mark = c.mark then
    after.fail .expectedTagUri context started
  else return (head.drop 1 ++ chars, after)

/-- Scans a handle: exclamation marks with a name between them, or as much of that as there is. In
a directive it must be whole. -/
def scanHandle (directive : Bool) (started : Mark) (c : Cursor) :
    Except Malformed (List Char × Cursor) :=
  if ! c.next '!' then
    c.fail .expectedTagMark (if directive then .tagDirectiveHandle else .tag) started
  else
    let name := c.skip.takeWhile isNameChar
    let after := c.skip.drop name.length
    if after.next '!' then .ok ('!' :: name ++ ['!'], after.skip)
    else if directive ∧ ¬ name.isEmpty then
      after.fail .expectedTagMark .tagDirectiveHandleEnd started
    else .ok ('!' :: name, after)

/-- Scans a tag into its handle and its suffix. -/
def scanTag (flow : Bool) (c : Cursor) : Except Malformed ((List Char × List Char) × Cursor) := do
  let started := c.mark
  let (parts, c) ← (if c.at? 1 = some '<' then do
      let (suffix, c) ← scanUri true .tagUri [] started (c.drop 2)
      if c.next '>' then return (([], suffix), c.skip)
      else c.fail .expectedBracketedTagEnd .tag started
    else do
      let (handle, c) ← scanHandle false started c
      if 2 ≤ handle.length ∧ handle.getLast? = some '!' then
        let (suffix, c) ← scanUri false .tagUri [] started c
        return ((handle, suffix), c)
      else
        let (suffix, c) ← scanUri false .tagUri handle started c
        return (if suffix.isEmpty then ([], ['!']) else (['!'], suffix), c) :
    Except Malformed ((List Char × List Char) × Cursor))
  if c.blankAt 0 ∨ (flow ∧ c.next ',') then return (parts, c)
  else c.fail .expectedBlankAfterTag .tag started

/-! ## Directives -/

/-- Scans a number of a version. -/
def scanVersionNumber (started : Mark) (c : Cursor) : Except Malformed (Nat × Cursor) :=
  let digits := c.takeWhile Char.isDigit
  if digits.isEmpty then c.fail .expectedVersionNumber .versionDirective started
  else if 9 < digits.length then (c.drop 9).fail .longVersionNumber .versionDirective started
  else .ok (digits.foldl (fun n d => 10 * n + (d.toNat - '0'.toNat)) 0, c.drop digits.length)

/-- Scans what follows the name of a directive. -/
def scanDirectiveValue (name : List Char) (started : Mark) (c : Cursor) :
    Except Malformed (TokenKind × Cursor) := do
  if name = "YAML".toList then
    let (major, c) ← scanVersionNumber started c.skipBlanks
    if ! c.next '.' then c.fail .expectedVersionPoint .versionDirective started
    else
      let (minor, c) ← scanVersionNumber started c.skip
      return (.versionDirective major minor, c)
  else if name = "TAG".toList then
    let (handle, c) ← scanHandle true started c.skipBlanks
    if ! c.nextIs isBlank then c.fail .expectedBlank .tagDirective started
    else
      let (expansion, c) ← scanUri true .tagDirectiveUri [] started c.skipBlanks
      if c.blankAt 0 then return (.tagDirective handle expansion, c)
      else c.fail .expectedBlankAfterTag .tagDirective started
  else c.fail .unknownDirective .directive started

/-- Scans a directive and the rest of its line. -/
def scanDirective (c : Cursor) : Except Malformed (Token × Cursor) := do
  let started := c.mark
  let name := c.skip.takeWhile isNameChar
  let after := c.skip.drop name.length
  if name.isEmpty then after.fail .expectedDirectiveName .directive started
  else if ! after.blankAt 0 then after.fail .directiveNameEnd .directive started
  else
    let (kind, c) ← scanDirectiveValue name started after
    let token : Token := ⟨kind, started, c.mark⟩
    let c := c.skipBlanks.skipComment
    if c.breakNext then return (token, c.skipBreak)
    else c.fail .expectedLineEnd .directive started

end Anchored.Yaml
