import Anchored.Yaml.Token.Scalar

/-!
# The tokens of a text

A key needs no sign in front of it; only the colon after it shows what it was. So a token that may
be a key is held back until it is clear, and then a key token, and maybe the start of a mapping, are
put in front of it. `Token.scan` gives the tokens that are let go, in order, and the fault that ends
them if the text has one. Tokens that are held back when a fault is found never get out.
-/

namespace Anchored.Yaml

/-- A place where a key may have started. -/
structure PossibleKey where
  /-- Nothing else can stand there. -/
  required : Bool
  /-- The number of the token that it would stand in front of. -/
  number : Nat
  mark : Mark
  deriving DecidableEq, Repr

/-- The state of a scan. -/
structure Scanner where
  cursor : Cursor
  /-- Tokens that are held back. -/
  held : List Token
  /-- Tokens that were let go. -/
  released : Nat
  /-- The possible keys of the flow collections and the block that are open, innermost first. -/
  keys : List (Option PossibleKey)
  /-- The column of the innermost block, or -1. -/
  indent : Int
  /-- The columns of the blocks around it, innermost first. -/
  indents : List Int
  /-- A key may start here. -/
  keyAllowed : Bool
  /-- Flow collections that are open. -/
  flowLevel : Nat
  deriving Repr

namespace Scanner

/-- The state at the start of a text, with the token for the start of the stream. -/
def start (c : Cursor) : Scanner where
  cursor := c
  held := [⟨.streamStart, c.mark, c.mark⟩]
  released := 0
  keys := [none]
  indent := -1
  indents := []
  keyAllowed := true
  flowLevel := 0

/-- A flow collection is open. -/
def inFlow (s : Scanner) : Bool :=
  s.flowLevel != 0

/-- The place of the cursor. -/
def mark (s : Scanner) : Mark :=
  s.cursor.mark

/-- The state with a token added. -/
def push (s : Scanner) (token : Token) : Scanner :=
  { s with held := s.held ++ [token] }

/-- The state with a token put in front of the one with a number. -/
def insertAt (s : Scanner) (number : Nat) (token : Token) : Scanner :=
  let n := number - s.released
  { s with held := s.held.take n ++ token :: s.held.drop n }

/-- The state with a token of `n` characters taken from the text. -/
def take (s : Scanner) (n : Nat) (kind : TokenKind) : Scanner :=
  let after := s.cursor.drop n
  { s.push ⟨kind, s.mark, after.mark⟩ with cursor := after }

/-! ## Possible keys -/

/-- The error for a required key that is none. -/
def missingColon (s : Scanner) (key : PossibleKey) : Except Malformed α :=
  s.cursor.fail .expectedColon .simpleKey key.mark

/-- The longest key without a sign, in characters. -/
def longestKey : Nat :=
  1024

/-- A key that started at the mark can no longer be one: the line or the length is exceeded. -/
def isStale (s : Scanner) (key : PossibleKey) : Bool :=
  key.mark.line < s.mark.line || key.mark.index + longestKey < s.mark.index

/-- Forgets the possible keys that can no longer be keys; the outermost is looked at first. -/
def dropStale (s : Scanner) : Except Malformed Scanner := do
  let stale (key : Option PossibleKey) : Except Malformed (Option PossibleKey) :=
    match key with
    | some k => if s.isStale k then if k.required then s.missingColon k else .ok none else .ok key
    | none => .ok none
  return { s with keys := (← s.keys.reverse.mapM stale).reverse }

/-- Forgets the innermost possible key. -/
def removeKey (s : Scanner) : Except Malformed Scanner :=
  match s.keys with
  | some key :: rest =>
    if key.required then s.missingColon key else .ok { s with keys := none :: rest }
  | _ => .ok s

/-- Remembers that a key may start here. -/
def saveKey (s : Scanner) : Except Malformed Scanner := do
  if ! s.keyAllowed then return s
  else
    let required := ! s.inFlow && s.indent == s.mark.column
    let key : PossibleKey := ⟨required, s.released + s.held.length, s.mark⟩
    let s ← s.removeKey
    return { s with keys := some key :: s.keys.drop 1 }

/-! ## Indentation -/

/-- Closes the blocks that are indented further than a column. -/
def unrollFrom (column : Int) (s : Scanner) : List Int → Scanner
  | [] => s
  | outer :: rest =>
    if column < s.indent then
      unrollFrom column
        { s.push ⟨.blockEnd, s.mark, s.mark⟩ with indent := outer, indents := rest } rest
    else s

/-- Closes the blocks that are indented further than a column, outside of flow collections. -/
def unroll (s : Scanner) (column : Int) : Scanner :=
  if s.inFlow then s else unrollFrom column s s.indents

/-- Opens a block at a column if it is indented further. The token for its start is added, or put in
front of the token with a number. -/
def roll (s : Scanner) (column : Nat) (number : Option Nat) (kind : TokenKind) (mark : Mark) :
    Scanner :=
  if s.inFlow ∨ (column : Int) ≤ s.indent then s
  else
    let token : Token := ⟨kind, mark, mark⟩
    let s := { s with indent := column, indents := s.indent :: s.indents }
    match number with
    | none => s.push token
    | some n => s.insertAt n token

/-! ## Fetching tokens -/

/-- Passes over blanks, comments and line breaks. A tab counts as a blank only where no key can
start. -/
def skipToToken (fuel : Nat) (s : Scanner) : Scanner :=
  match fuel with
  | 0 => s
  | fuel + 1 =>
    let c := s.cursor
    let c := if c.mark.column = 0 ∧ c.next byteOrderMark then c.skip else c
    let tabs := s.inFlow || ! s.keyAllowed
    let c := (c.skipWhile fun x => x == ' ' || (tabs && x == '\t')).skipComment
    if c.nextIs isBreak then
      skipToToken fuel
        { s with cursor := c.skipBreak, keyAllowed := s.keyAllowed || ! s.inFlow }
    else { s with cursor := c }

/-- The end of the text: every block is closed. -/
def fetchStreamEnd (s : Scanner) : Except Malformed Scanner := do
  let m := s.mark
  let m : Mark := if m.column = 0 then m else ⟨m.index, m.line + 1, 0⟩
  let s ← ({ s with cursor := { s.cursor with mark := m } }.unroll (-1)).removeKey
  return { s with keyAllowed := false }.push ⟨.streamEnd, m, m⟩

/-- A directive. -/
def fetchDirective (s : Scanner) : Except Malformed Scanner := do
  let s ← (s.unroll (-1)).removeKey
  let (token, c) ← scanDirective s.cursor
  return { s.push token with cursor := c, keyAllowed := false }

/-- The start or the end of a document. -/
def fetchDocumentMark (kind : TokenKind) (s : Scanner) : Except Malformed Scanner := do
  let s ← (s.unroll (-1)).removeKey
  return { s with keyAllowed := false }.take 3 kind

/-- The start of a flow collection. -/
def fetchFlowStart (kind : TokenKind) (s : Scanner) : Except Malformed Scanner := do
  let s ← s.saveKey
  return { s with keys := none :: s.keys, flowLevel := s.flowLevel + 1, keyAllowed := true }.take 1
    kind

/-- The end of a flow collection. -/
def fetchFlowEnd (kind : TokenKind) (s : Scanner) : Except Malformed Scanner := do
  let s ← s.removeKey
  let s := if s.inFlow then { s with keys := s.keys.drop 1, flowLevel := s.flowLevel - 1 } else s
  return { s with keyAllowed := false }.take 1 kind

/-- A comma between the entries of a flow collection. -/
def fetchFlowEntry (s : Scanner) : Except Malformed Scanner := do
  let s ← s.removeKey
  return { s with keyAllowed := true }.take 1 .flowEntry

/-- The dash of a sequence's entry. -/
def fetchBlockEntry (s : Scanner) : Except Malformed Scanner := do
  if ¬ s.inFlow ∧ ¬ s.keyAllowed then s.cursor.failHere .entryNotAllowed
  else
    let s ← (s.roll s.mark.column none .blockSequenceStart s.mark).removeKey
    return { s with keyAllowed := true }.take 1 .blockEntry

/-- The sign in front of a key. -/
def fetchKey (s : Scanner) : Except Malformed Scanner := do
  if ¬ s.inFlow ∧ ¬ s.keyAllowed then s.cursor.failHere .keyNotAllowed
  else
    let s ← (s.roll s.mark.column none .blockMappingStart s.mark).removeKey
    return { s with keyAllowed := ! s.inFlow }.take 1 .key

/-- The colon in front of a value. What may have been a key is one now. -/
def fetchValue (s : Scanner) : Except Malformed Scanner :=
  match s.keys with
  | some key :: rest =>
    let s := s.insertAt key.number ⟨.key, key.mark, key.mark⟩
    let s := s.roll key.mark.column (some key.number) .blockMappingStart key.mark
    .ok ({ s with keys := none :: rest, keyAllowed := false }.take 1 .value)
  | _ =>
    if ¬ s.inFlow ∧ ¬ s.keyAllowed then s.cursor.failHere .valueNotAllowed
    else
      let s := s.roll s.mark.column none .blockMappingStart s.mark
      .ok ({ s with keyAllowed := ! s.inFlow }.take 1 .value)

/-- An anchor or an alias. -/
def fetchAnchor (context : Context) (kind : List Char → TokenKind) (s : Scanner) :
    Except Malformed Scanner := do
  let s ← s.saveKey
  let (name, c) ← scanAnchor context s.cursor
  return { s.push ⟨kind name, s.mark, c.mark⟩ with cursor := c, keyAllowed := false }

/-- A tag. -/
def fetchTag (s : Scanner) : Except Malformed Scanner := do
  let s ← s.saveKey
  let ((handle, suffix), c) ← scanTag s.inFlow s.cursor
  return { s.push ⟨.tag handle suffix, s.mark, c.mark⟩ with cursor := c, keyAllowed := false }

/-- A block scalar. -/
def fetchBlockScalar (folded : Bool) (s : Scanner) : Except Malformed Scanner := do
  let s ← s.removeKey
  let (token, c) ← scanBlock folded s.indent s.cursor
  return { s.push token with cursor := c, keyAllowed := true }

/-- A quoted scalar. -/
def fetchQuoted (single : Bool) (s : Scanner) : Except Malformed Scanner := do
  let s ← s.saveKey
  let (token, c) ← scanQuoted single s.cursor
  return { s.push token with cursor := c, keyAllowed := false }

/-- A plain scalar. After a line break a key may start again. -/
def fetchPlain (s : Scanner) : Except Malformed Scanner := do
  let s ← s.saveKey
  let (token, broken, c) ← scanPlain s.inFlow s.indent s.cursor
  return { s.push token with cursor := c, keyAllowed := broken }

/-- The characters that a plain scalar cannot start with, unless something is allowed after them. -/
def isIndicator (x : Char) : Bool :=
  ['-', '?', ':', ',', '[', ']', '\x7b', '\x7d', '#', '&', '*', '!', '|', '>', '\'', '"', '%', '@',
    '\x60'].contains x

/-- A plain scalar can start here. -/
def plainStarts (s : Scanner) : Bool :=
  let c := s.cursor
  ! (c.blankAt 0 || c.nextIs isIndicator) ||
    (c.next '-' && ! (c.at? 1).any isBlank) ||
    (! s.inFlow && c.nextIn ['?', ':'] && ! c.blankAt 1)

/-- Fetches the next token, and those that come with it. -/
def fetch (s : Scanner) : Except Malformed Scanner := do
  let s ← (s.skipToToken (s.cursor.left + 1)).dropStale
  let s := s.unroll s.mark.column
  let c := s.cursor
  match c.rest with
  | [] => s.fetchStreamEnd
  | x :: _ =>
    if x = '%' ∧ c.mark.column = 0 then s.fetchDirective
    else if c.atDocumentMark Cursor.startMark then s.fetchDocumentMark .documentStart
    else if c.atDocumentMark Cursor.endMark then s.fetchDocumentMark .documentEnd
    else if x = '[' then s.fetchFlowStart .flowSequenceStart
    else if x = '\x7b' then s.fetchFlowStart .flowMappingStart
    else if x = ']' then s.fetchFlowEnd .flowSequenceEnd
    else if x = '\x7d' then s.fetchFlowEnd .flowMappingEnd
    else if x = ',' then s.fetchFlowEntry
    else if x = '-' ∧ c.blankAt 1 then s.fetchBlockEntry
    else if x = '?' ∧ (s.inFlow ∨ c.blankAt 1) then s.fetchKey
    else if x = ':' ∧ (s.inFlow ∨ c.blankAt 1) then s.fetchValue
    else if x = '*' then s.fetchAnchor .alias .alias
    else if x = '&' then s.fetchAnchor .anchor .anchor
    else if x = '!' then s.fetchTag
    else if x = '|' ∧ ¬ s.inFlow then s.fetchBlockScalar false
    else if x = '>' ∧ ¬ s.inFlow then s.fetchBlockScalar true
    else if x = '\'' then s.fetchQuoted true
    else if x = '"' then s.fetchQuoted false
    else if s.plainStarts then s.fetchPlain
    else c.fail .cannotStartToken .nextToken c.mark

/-- The first token held back may still turn out to follow a key token, or there is none. -/
def mustFetch (s : Scanner) : Bool :=
  s.held.isEmpty || s.keys.any fun key => key.any (·.number == s.released)

/-- Fetches tokens until the first one can be let go. -/
def fetchMore (fuel : Nat) (s : Scanner) : Except Malformed Scanner :=
  match fuel with
  | 0 => .ok s
  | fuel + 1 => do
    let s ← if s.held.isEmpty then .ok s else s.dropStale
    if s.mustFetch then fetchMore fuel (← s.fetch) else return s

/-- Lets the tokens go one after another. -/
def release (steps fuel : Nat) (s : Scanner) : List Token × Option Malformed :=
  match steps with
  | 0 => ([], none)
  | steps + 1 =>
    match s.fetchMore fuel with
    | .error fault => ([], some fault)
    | .ok s =>
      match s.held with
      | [] => ([], none)
      | token :: held =>
        if token.kind = .streamEnd then ([token], none)
        else
          let (tokens, fault) := release steps fuel { s with held, released := s.released + 1 }
          (token :: tokens, fault)

end Scanner

/-- The tokens of a text, and the fault that cuts them short. -/
def Token.scan (text : List Char) : List Token × Option Malformed :=
  match Cursor.start text with
  | .error fault => ([], some fault)
  | .ok c => (Scanner.start c).release (4 * text.length + 16) (text.length + 4)

end Anchored.Yaml
