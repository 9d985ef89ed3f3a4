import Anchored.Parsing.Rule

/-!
# Reading tokens

All tokens of a grammar as one set of spots. A run over a text keeps the spots that may take the
next character; blanks before a token leave a run where it was, as long as it has taken nothing
else. The longest token wins, and of tokens of one length the preferred one, except that a token of
a lower rank does not go on from where one of a higher rank is complete.
-/

namespace Anchored.Parsing

/-- A place in the pattern of a token where a character is taken. -/
structure Spot where
  among : Char → Bool
  token : Nat
  /-- The spots that may take the character after this. -/
  next : List Nat
  /-- The token may end here. -/
  closes : Bool
  deriving Inhabited

/-- The tokens of a grammar as spots. -/
structure Lexicon where
  terminals : Array Terminal
  blank : Char → Bool
  spots : Array Spot
  /-- For every terminal, the spots that it may start with. -/
  starts : Array (List Nat)

/-- The spots of some terminals. -/
def Lexicon.of (terminals : Array Terminal) (blank : Char → Bool) : Lexicon :=
  let (spots, starts) := terminals.zipIdx.foldl
    (fun ((spots, starts) : Array Spot × Array (List Nat)) ((t, token) : Terminal × Nat) =>
      match t.form with
      | none => (spots, starts.push [])
      | some form =>
        let o := form.pattern.outline spots.size
        let added := o.spots.zipIdx.map fun (among, i) =>
          let here := spots.size + i
          { among
            token
            next := (o.links.filterMap fun (a, b) => if a = here then some b else none).eraseDups
            closes := o.stops.contains here : Spot }
        (spots ++ added.toArray, starts.push o.starts)) (#[], #[])
  ⟨terminals, blank, spots, starts⟩

namespace Lexicon

variable (x : Lexicon)

/-- The rank of a token. -/
def rank (token : Nat) : Int :=
  match x.terminals[token]? with
  | some ⟨_, _, some form⟩ => form.rank
  | _ => 0

/-- The token follows on what comes before it without blanks. -/
def glued (token : Nat) : Bool :=
  match x.terminals[token]? with
  | some ⟨_, _, some form⟩ => form.glued
  | _ => false

/-- How specific a token is: a text is more so than a pattern. -/
def specificity (token : Nat) : Nat :=
  match x.terminals[token]? with
  | some ⟨_, _, some form⟩ =>
    (if form.exact.isSome then 2 else 0) + if form.glued then 1 else 0
  | _ => 0

/-- Of two tokens that match the same text, the first is the preferred one. -/
def prefers (a b : Nat) : Bool :=
  if x.rank a != x.rank b then x.rank b < x.rank a
  else if x.specificity a != x.specificity b then x.specificity b < x.specificity a
  else a < b

/-- The preferred one of some tokens. -/
def preferred (tokens : List Nat) : Option Nat :=
  tokens.foldl (fun best t =>
    match best with
    | none => some t
    | some b => if x.prefers b t then best else some t) none

end Lexicon

/-- How far some tokens have been read. -/
structure Run where
  /-- Nothing but blanks has been taken. -/
  gap : Bool
  /-- The spots that may take the next character. -/
  live : List Nat
  /-- The tokens that are complete. -/
  done : List Nat
  deriving DecidableEq, Repr, Inhabited

/-- A character that a run has taken. -/
structure Taken where
  run : Run
  /-- Every reading takes the character for a blank. -/
  skipped : Bool
  /-- The highest rank of the tokens that take the character. -/
  rank : Int

namespace Lexicon

variable (x : Lexicon)

/-- The spot with a number. -/
def spot (i : Nat) : Spot :=
  x.spots[i]!

/-- The run that takes a character from another one, where `fresh` are the spots that tokens may
start with after a blank. -/
def take? (fresh : List Nat) (r : Run) (c : Char) : Option Taken :=
  let hits := r.live.filter fun i => (x.spot i).among c
  let blank := r.gap && x.blank c
  if hits.isEmpty && !blank then none
  else
    let next := hits.flatMap fun i => (x.spot i).next
    let ranks := (if blank then [0] else []) ++ hits.map fun i => x.rank (x.spot i).token
    some {
      run := {
        gap := blank
        live := ((if blank then next ++ fresh else next).mergeSort).eraseReps
        done := ((hits.filter fun i => (x.spot i).closes).map fun i => (x.spot i).token).eraseDups }
      skipped := hits.isEmpty
      rank := ranks.foldl max (ranks.headD 0) }

/-- The tokens that a run is reading or has read. -/
def tokens (r : Run) : List Nat :=
  ((r.live.map fun i => (x.spot i).token) ++ r.done).eraseDups

/-- A run goes on with a character though a token is complete. -/
def goesOn (r : Run) (complete : Nat) (t : Taken) : Bool :=
  if t.rank < x.rank complete then false
  else if t.rank = x.rank complete then
    !t.skipped && !(r.gap && (x.tokens t.run).contains complete)
  else true

end Lexicon

end Anchored.Parsing
