import Anchored.Parsing.Stack

/-!
# The next token

What comes next in a text depends on the state of a reading: the layout is asked first, then the
tokens that the state looks for, and where neither finds anything, all that may show how to go on.
Characters that are no token at all are passed over together.
-/

namespace Anchored.Parsing

variable {σ : Type}

/-- A text with the bytes and rows before each of its characters. -/
structure Source where
  chars : Array Char
  bytes : Array Nat
  rows : Array Nat

/-- A text as a source. -/
def Source.of (chars : List Char) : Source :=
  let (bytes, rows) := chars.foldl
    (fun ((bytes, rows) : Array Nat × Array Nat) c =>
      (bytes.push (bytes.back! + c.utf8Size),
        rows.push (rows.back! + if c = '\n' then 1 else 0))) (#[0], #[0])
  ⟨chars.toArray, bytes, rows⟩

namespace Source

variable (s : Source)

/-- The number of characters. -/
def size : Nat :=
  s.chars.size

/-- The character at a position; past the end of the text the one with the code zero. -/
def at_ (i : Nat) : Char :=
  s.chars.getD i '\x00'

/-- The distance between two positions. -/
def extent (i j : Nat) : Extent :=
  ⟨j - i, s.bytes.getD j 0 - s.bytes.getD i 0, s.rows.getD j 0 - s.rows.getD i 0⟩

/-- The characters between two positions. -/
def slice (i j : Nat) : List Char :=
  (s.chars.extract i j).toList

end Source

/-- A token that the layout shows. -/
structure Found (σ : Type) where
  /-- Its number among the tokens that the layout shows. -/
  index : Nat
  /-- The layout after it. -/
  layout : σ
  start : Nat
  stop : Nat

/-- Looks for a token that the layout shows, at a position, among those that are wanted, after what
the layout was before. -/
abbrev Scan (σ : Type) :=
  Source → Nat → (Nat → Bool) → Option σ → Option (Found σ)

/-- What a text is read by. -/
structure Context (σ : Type) where
  table : Table
  source : Source
  scan : Scan σ

/-- What has been found of a token. -/
structure Lexed where
  /-- The token; `none` if there is none. -/
  token : Option Nat
  start : Nat
  /-- Where the token stops, or else where reading stopped. -/
  stop : Nat

/-- Reads the longest token on from a run. What is skipped moves `start` on, and `best` is the
longest token so far with its end. -/
def readToken (x : Lexicon) (m : Mode) (s : Source) :
    Nat → Nat → Nat → Run → Option (Nat × Nat) → Lexed
  | 0, position, start, _, _ => ⟨none, start, position⟩
  | limit + 1, position, start, r, best =>
    let complete := x.preferred r.done
    let best := (complete.map fun t => (t, position)).or best
    let ended := s.size ≤ position
    if ended && m.finish && r.gap then ⟨some 0, start, position⟩
    else
      let next := (x.take? m.fresh r (s.at_ position)).filter fun t =>
        match complete with
        | some c => x.goesOn r c t
        | none => true
      match next, best with
      | some t, _ =>
        let after := if ended then position else position + 1
        readToken x m s limit after (if t.skipped then after else start) t.run best
      | none, some (token, stop) => ⟨some token, start, stop⟩
      | none, none => ⟨none, start, position⟩

namespace Context

variable (c : Context σ)

/-- A state of the table. -/
def place (state : Nat) : Place :=
  c.table.places[state]!

/-- What a terminal does in a state. -/
def actions (state : Nat) (label : Label) : List Action :=
  match label with
  | .symbol n => (c.place state).actions.getD n []
  | _ => []

/-- The state that a tree leads to from another one. -/
def next (state : Nat) : Label → Nat
  | .symbol n =>
    let width := c.table.symbols.width
    if n < width then
      match (c.actions state (.symbol n)).getLast? with
      | some (.shift target _) => target
      | some .pass => state
      | _ => 0
    else (c.place state).gotos.getD (n - width) 0
  | _ => 0

/-- A symbol is a node of its own. -/
def shown : Label → Bool
  | .symbol n =>
    let s := c.table.symbols
    if n < s.width then (s.terminals[n]?.map Terminal.shown).getD false
    else s.kind? n == some .shown
  | .skipped => false
  | .error => true

/-- The token at a position in a state. -/
def lexed (state start : Nat) : Lexed :=
  let s := c.source
  let m := c.table.modes[(c.place state).mode]!
  readToken c.table.lexicon m s (s.size + 3) start start ⟨!m.fresh.isEmpty, m.starts, []⟩ none

/-- What is found at a position. -/
inductive Sight (σ : Type) where
  | layout (found : Found σ)
  | token (found : Lexed)
  /-- Characters that are no token, up to the end of the text or to a token. -/
  | stray (start stop : Nat)

/-- Looks for what comes next in a state, where `moved` says that the text has been read on since
the last error, and `passed` are the characters so far that are no token. -/
def look (state start : Nat) (before : Option σ) (moved : Bool) [BEq σ] :
    Nat → Nat → Bool → Option (Nat × Nat) → Sight σ
  | 0, position, _, passed => .stray (passed.map Prod.fst |>.getD position) position
  | limit + 1, position, error, passed =>
    let state := if error then 0 else state
    let wanted (i : Nat) := (c.place state).outside.testBit i
    -- the mark that only says how a text is stored is no part of it
    let here := if position = 0 && c.source.at_ 0 = '\ufeff' then 1 else position
    let layout := (c.scan c.source here wanted before).filter fun f =>
      position < f.stop || (!error && moved) || before != some f.layout
    match layout, passed with
    | some f, none => .layout f
    | some _, some (first, last) => .stray first last
    | none, _ =>
      let l := c.lexed state here
      match l.token, passed with
      | some _, none => .token l
      | some _, some (first, last) => .stray first last
      | none, _ =>
        if !error then look state start before moved limit start true none
        else
          let (first, last) := passed.getD (l.start, l.start)
          if l.stop = last && c.source.size ≤ last then .stray first last
          else
            let last := if l.stop = last then last + 1 else l.stop
            look state start before moved limit last true (some (first, last))

/-- The next token of a head. -/
def lookahead [BEq σ] (r : Readings σ) (v : Nat) : Tree σ :=
  let s := c.source
  let state := r.state v
  let start := (r.top v).reach.chars
  let before := (r.head v).layout
  match c.look state start before (r.advanced v) (2 * s.size + 4) start (state = 0) none with
  | .stray first last => Tree.leaf .error true (s.extent start first) (s.extent first last)
  | .layout f =>
    let label := Label.symbol (c.table.outside.getD f.index 0)
    let t : Tree σ := .leaf label (c.shown label) (s.extent start f.start) (s.extent f.start f.stop)
    .node { t.info with
      layout := some f.layout, laidOut := true, changed := before != some f.layout } []
  | .token l =>
    let token := l.token.getD 0
    let keyword :=
      if token = word then c.table.keywords[String.ofList (s.slice l.start l.stop)]? else none
    let token := match keyword with
      | some k => if (c.actions state (.symbol k)).isEmpty then token else k
      | none => token
    let label := Label.symbol token
    let t : Tree σ := .leaf label (c.shown label) (s.extent start l.start) (s.extent l.start l.stop)
    .node { t.info with keyword := keyword.isSome } []

end Context

end Anchored.Parsing
