import Anchored.Parsing.Automaton
import Anchored.Parsing.Lexicon

/-!
# Tokens that overlap

Where one token could be taken for another, a state that looks for the one should not look for the
other. What can happen with two tokens is found by reading both at once, over characters that tell
apart all classes in their patterns.
-/

namespace Anchored.Parsing

/-- How tokens get in each other's way: for every token, the set of the others for which the fact
holds. -/
structure Overlap where
  /-- It goes on where the other is complete. -/
  extends_ : Array Nat
  /-- It goes on so with a character that may follow the other. -/
  extendsInto : Array Nat
  /-- It is complete where the other would go on, and is taken. -/
  stops : Array Nat
  /-- It may be complete after nothing but blanks. -/
  blank : Array Nat
  /-- It is preferred to the other where both match the same text. -/
  beats : Array Nat

/-- The fact holds of a token and another. -/
def holds (fact : Array Nat) (token other : Nat) : Bool :=
  (fact.getD token 0).testBit other

namespace Overlap

variable (o : Overlap)

/-- Looking for one token may hide the other. -/
def hides (token other : Nat) : Bool :=
  holds o.extendsInto token other || holds o.blank token other || holds o.beats token other

/-- One token may be longer than the other where the other is meant. -/
def outruns (token other : Nat) : Bool :=
  (holds o.extendsInto token other || holds o.blank token other) && !holds o.blank other token

/-- The tokens share the start of a text. -/
def touches (token other : Nat) : Bool :=
  holds o.blank token other || holds o.stops token other || holds o.beats token other ||
    holds o.extends_ token other

end Overlap

/-- A fact found about two tokens. -/
inductive Finding where
  | extends_ (token : Nat) (character : Nat)
  | stops (token : Nat)
  | blank (token : Nat)
  | beats (token : Nat)

/-- Facts about tokens of which some are complete where a run is. -/
def complete (x : Lexicon) (r : Run) : Option Nat × List Finding :=
  if r.gap then (none, (r.done.mergeSort.head?.map Finding.blank).toList)
  else
    r.done.mergeSort.foldl (fun (best, found) t =>
      match best with
      | none => (some t, found)
      | some b =>
        if t = b then (best, found)
        else if x.prefers b t then (best, .beats b :: found)
        else (some t, .beats t :: found)) (none, [])

/-- Reads tokens at once from some runs on, and gives what is found about them. Characters are given
with their numbers among the samples; `limit` bounds the number of runs that are looked at. -/
def explore (x : Lexicon) (fresh : List Nat) (samples : List (Char × Nat)) :
    Nat → List Run → List Run → List Finding → List Finding
  | 0, _, _, found => found
  | _, [], _, found => found
  | limit + 1, r :: todo, seen, found =>
    match x.tokens r with
    | [] | [_] => explore x fresh samples limit todo seen found
    | _ =>
      let (best, facts) := complete x r
      let step := samples.foldl
        (fun ((todo, seen, found) : List Run × List Run × List Finding) (c, n) =>
          match x.take? fresh r c with
          | none => (todo, seen, found)
          | some t =>
            let tokens := x.tokens t.run
            let (open_, found) := match best with
              | none => (true, found)
              | some b =>
                match tokens with
                | other :: _ =>
                  if tokens.contains b then (true, found)
                  else if x.goesOn r b t then (true, .extends_ other n :: found)
                  else (false, .stops b :: found)
                | [] => (true, found)
            if open_ && !seen.contains t.run then (t.run :: todo, t.run :: seen, found)
            else (todo, seen, found)) (todo, seen, facts ++ found)
      explore x fresh samples limit step.1 step.2.1 step.2.2

/-- More runs than any two tokens have. -/
def runLimit : Nat := 4096

/-- The tokens that may follow each terminal. -/
def followers (x : Plan) : Array Nat := Id.run do
  let s := x.symbols
  let lasts := borders s x.productions true
  let mut found := Array.replicate s.width 0
  for ps in x.productions do
    for p in ps do
      for (a, b) in p.steps.zip (p.steps.drop 1) do
        let before := lasts.getD a.symbol 0
        let after := x.firsts.getD b.symbol 0
        for t in [0:s.width] do
          if before.testBit t then found := found.modify t (· ||| after)
  for extra in x.anywhere do
    found := found.map (· ||| bit extra)
  for extra in x.anywhere do
    found := found.set! extra ((1 <<< s.width) - 1)
  return found

/-- How the tokens of a grammar get in each other's way. -/
def Plan.overlap (x : Plan) (l : Lexicon) (samples : List Char) : Overlap := Id.run do
  let width := x.symbols.width
  let samples := samples.zipIdx
  let setOf (p : Char → Bool) : Nat :=
    samples.foldl (fun set (c, n) => if p c then set ||| bit n else set) 0
  let blanks := setOf l.blank
  let own := l.starts.map fun starts =>
    starts.foldl (fun set i => set ||| setOf (l.spot i).among) 0
  let first := own.mapIdx fun t set =>
    if set = 0 || l.glued t then set else set ||| blanks
  let follow := (followers x).map fun set =>
    (List.range width).foldl (fun chars t =>
      if set.testBit t then chars ||| first.getD t 0 else chars) 0
  let none := Array.replicate width 0
  let mut o : Overlap := ⟨none, none, none, none, none⟩
  for a in [0:width] do
    for b in [0:a] do
      let (s, t) := (own[a]!, own[b]!)
      if s &&& t != 0 || (s != 0 && t != 0 && (s ||| t) &&& blanks != 0) then
        let fresh := ([a, b].filter fun t => !l.glued t).flatMap fun t => l.starts[t]!
        let starts := (l.starts[a]! ++ l.starts[b]!).mergeSort
        let start : Run := ⟨!fresh.isEmpty, starts, []⟩
        let other (t : Nat) := if t = a then b else a
        for finding in explore l fresh samples runLimit [start] [start] [] do
          match finding with
          | .extends_ t n =>
            o := { o with extends_ := o.extends_.modify t (· ||| bit (other t)) }
            if follow[other t]!.testBit n then
              o := { o with extendsInto := o.extendsInto.modify t (· ||| bit (other t)) }
          | .stops t => o := { o with stops := o.stops.modify t (· ||| bit (other t)) }
          | .blank t => o := { o with blank := o.blank.modify t (· ||| bit (other t)) }
          | .beats t => o := { o with beats := o.beats.modify t (· ||| bit (other t)) }
  return o

end Anchored.Parsing
