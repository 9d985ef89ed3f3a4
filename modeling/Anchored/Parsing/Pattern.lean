/-!
# Patterns of characters

A pattern is a regular expression. It is read through its spots, the places where it takes one
character: `Pattern.outline` says at which spots a match may start and stop, and which spots may
follow which. A match is a walk along the spots, so no pattern needs to be taken apart while a text
is read.
-/

namespace Anchored.Parsing

/-- A regular expression over characters. -/
inductive Pattern where
  /-- The empty text. -/
  | nothing
  /-- One character of a class. -/
  | one (among : Char → Bool)
  | seq (first second : Pattern)
  | either (left right : Pattern)
  /-- One or more times. -/
  | many (inner : Pattern)

namespace Pattern

/-- One pattern after the other. -/
def all : List Pattern → Pattern
  | [] => nothing
  | [p] => p
  | p :: r => seq p (all r)

/-- Any of some patterns. -/
def any : List Pattern → Pattern
  | [] => nothing
  | [p] => p
  | p :: r => either p (any r)

/-- A pattern that may be left out. -/
def optional (p : Pattern) : Pattern :=
  either p nothing

/-- Any number of times. -/
def star (p : Pattern) : Pattern :=
  optional (many p)

/-- Exactly so many times. -/
def times (n : Nat) (p : Pattern) : Pattern :=
  all (List.replicate n p)

/-- One of the characters of a text. -/
def oneOf (s : String) : Pattern :=
  one fun c => s.toList.contains c

/-- One character that is not among those of a text. No pattern stated so takes the character with
the code zero, which stands for the end of a text as well. -/
def noneOf (s : String) : Pattern :=
  one fun c => c ≠ '\x00' && !s.toList.contains c

/-- One character between two. -/
def between (low high : Char) : Pattern :=
  one fun c => low ≤ c && c ≤ high

/-- This text. -/
def text (s : String) : Pattern :=
  all (s.toList.map fun c => one (· == c))

end Pattern

/-- The spots of a pattern, numbered from some number on, and how a match may pass along them. -/
structure Outline where
  /-- What each spot takes. -/
  spots : List (Char → Bool)
  starts : List Nat
  stops : List Nat
  /-- The empty text matches. -/
  empty : Bool
  /-- Which spot may come right after which. -/
  links : List (Nat × Nat)

/-- The spots of a pattern, numbered from `base` on. -/
def Pattern.outline : Pattern → Nat → Outline
  | nothing, _ => ⟨[], [], [], true, []⟩
  | one among, base => ⟨[among], [base], [base], false, []⟩
  | seq p q, base =>
    let a := p.outline base
    let b := q.outline (base + a.spots.length)
    { spots := a.spots ++ b.spots
      starts := a.starts ++ if a.empty then b.starts else []
      stops := b.stops ++ if b.empty then a.stops else []
      empty := a.empty && b.empty
      links := a.links ++ b.links ++ a.stops.flatMap fun i => b.starts.map (i, ·) }
  | either p q, base =>
    let a := p.outline base
    let b := q.outline (base + a.spots.length)
    ⟨a.spots ++ b.spots, a.starts ++ b.starts, a.stops ++ b.stops, a.empty || b.empty,
      a.links ++ b.links⟩
  | many p, base =>
    let a := p.outline base
    { a with links := a.links ++ a.stops.flatMap fun i => a.starts.map (i, ·) }

end Anchored.Parsing
