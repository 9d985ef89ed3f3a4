import Anchored.Parsing.Table

/-!
# Trees

What a text is read as, with its faults. A fault has a cost, and of two readings of a text the
cheaper one is the better. A tree also holds what the layout of the text was after each token that
the layout shows.
-/

namespace Anchored.Parsing

/-- A distance in a text. -/
structure Extent where
  chars : Nat
  bytes : Nat
  rows : Nat
  deriving DecidableEq, Repr, Inhabited

instance : Add Extent :=
  ⟨fun a b => ⟨a.chars + b.chars, a.bytes + b.bytes, a.rows + b.rows⟩⟩

/-- No distance. -/
def Extent.zero : Extent :=
  ⟨0, 0, 0⟩

/-- What a tree is a tree of. -/
inductive Label where
  | symbol (n : Nat)
  /-- A part of what was skipped. -/
  | skipped
  /-- What was skipped, or characters that are no token. -/
  | error
  deriving DecidableEq, Repr, Inhabited

/-- The order of labels. -/
def Label.compare : Label → Label → Ordering
  | .symbol a, .symbol b => Ord.compare a b
  | .symbol _, _ => .lt
  | _, .symbol _ => .gt
  | .skipped, .skipped => .eq
  | .skipped, .error => .lt
  | .error, .skipped => .gt
  | .error, .error => .eq

/-- The cost of each way in which a reading departs from the grammar. -/
structure Costs where
  recovery : Nat
  missing : Nat
  skippedTree : Nat
  skippedByte : Nat
  skippedRow : Nat

/-- What faults cost. -/
def costs : Costs :=
  ⟨500, 110, 100, 1, 30⟩

/-- What is known of a tree; `σ` is the state of the layout. -/
structure Info (σ : Type) where
  label : Label
  /-- What stands before the tree and is no part of it. -/
  gap : Extent
  size : Extent
  /-- The tree is a node of its own. -/
  shown : Bool
  /-- The tree stands where the grammar has no place for it. -/
  extra : Bool
  cost : Nat
  weight : Int
  /-- The nodes right below this one, those in hidden parts included. -/
  shownParts : Nat
  /-- All nodes below this one. -/
  shownWithin : Nat
  /-- Under which name each part is a node, if not under that of its own symbol. -/
  aliases : List (Option String)
  /-- The text lacks this token. -/
  missing : Bool
  /-- The token could be the word. -/
  keyword : Bool
  /-- The layout after this token, if the layout shows it. -/
  layout : Option σ
  /-- The tree holds a token that the layout shows. -/
  laidOut : Bool
  /-- The layout changed with this token. -/
  changed : Bool
  deriving Inhabited

/-- What a text is read as. -/
inductive Tree (σ : Type) where
  | node (info : Info σ) (parts : List (Tree σ))
  deriving Inhabited

namespace Tree

variable {σ : Type}

/-- What is known of a tree. -/
def info : Tree σ → Info σ
  | node i _ => i

/-- The parts of a tree. -/
def parts : Tree σ → List (Tree σ)
  | node _ ps => ps

/-- The tree and what stands before it. -/
def total (t : Tree σ) : Extent :=
  t.info.gap + t.info.size

/-- A tree that stands where the grammar has no place for it. -/
def asExtra (t : Tree σ) : Tree σ :=
  node { t.info with extra := true } t.parts

/-- The number of nodes that a tree adds to a reading. -/
def count (t : Tree σ) : Nat :=
  t.info.shownWithin + (if t.info.shown then 1 else 0) + if t.info.label = .skipped then 1 else 0

/-- A token. -/
def leaf (label : Label) (shown : Bool) (gap size : Extent) : Tree σ :=
  node {
    label, gap, size, shown
    extra := label = .symbol 0
    cost := 0, weight := 0, shownParts := 0, shownWithin := 0, aliases := []
    missing := false, keyword := false, layout := none, laidOut := false, changed := false } []

/-- A token that the text lacks. -/
def lacking (symbol : Nat) (shown : Bool) : Tree σ :=
  let i := (leaf (.symbol symbol) shown .zero .zero : Tree σ).info
  node { i with missing := true, cost := costs.missing + costs.recovery } []

/-- The tree stands for something skipped. -/
def isSkip : Label → Bool
  | .symbol _ => false
  | _ => true

/-- The cost of a part of something skipped. -/
def skipCost (t : Tree σ) : Nat :=
  let i := t.info
  if i.extra || (i.label = .error && t.parts.isEmpty) then 0
  else if i.shown then costs.skippedTree
  else costs.skippedTree * i.shownParts

/-- What is known of some parts together, where `i` is known of those before them, and the names in
`aliases` are those of parts still to come. -/
def gather (skip : Bool) : List (Tree σ) → List (Option String) → Info σ → Info σ
  | [], _, i => i
  | t :: r, aliases, i =>
    let j := t.info
    let named := !j.extra && j.label != .symbol 0 && (aliases.head?.join).isSome
    let visible := named || j.shown
    gather skip r (if j.extra then aliases else aliases.drop 1) { i with
      size := i.size + t.total
      cost := i.cost + (if j.label = .skipped then 0 else j.cost) + if skip then t.skipCost else 0
      weight := i.weight + j.weight
      shownParts := i.shownParts + if visible then 1 else j.shownParts
      shownWithin := i.shownWithin + j.shownWithin + if visible then 1 else 0
      laidOut := i.laidOut || j.laidOut }

/-- A tree of some parts. -/
def make (label : Label) (shown : Bool) (aliases : List (Option String)) (parts : List (Tree σ)) :
    Tree σ :=
  let skip := isSkip label
  let gap := (parts.head?.map fun t => t.info.gap).getD .zero
  let start := (leaf label shown gap .zero : Tree σ).info
  let i := gather skip parts aliases { start with aliases, extra := false }
  let size : Extent :=
    ⟨i.size.chars - gap.chars, i.size.bytes - gap.bytes, i.size.rows - gap.rows⟩
  let own := if skip then
      costs.recovery + costs.skippedByte * size.bytes + costs.skippedRow * size.rows
    else 0
  node { i with size, cost := i.cost + own } parts

/-- What was skipped. -/
def skip (parts : List (Tree σ)) : Tree σ :=
  make .error true [] parts

/-- A part of what was skipped. -/
def skipPart (parts : List (Tree σ)) : Tree σ :=
  make .skipped false [] parts

mutual

/-- The order of two readings that are equally good: labels and numbers of parts, outer ones
first. -/
def compare : Tree σ → Tree σ → Ordering
  | node i ps, node j qs =>
    (i.label.compare j.label).then ((Ord.compare ps.length qs.length).then (compareAll ps qs))

/-- The order of two lists of trees of one length. -/
def compareAll : List (Tree σ) → List (Tree σ) → Ordering
  | p :: ps, q :: qs => (compare p q).then (compareAll ps qs)
  | _, _ => .eq

end

/-- The second of two readings is the better one. -/
def improves (old new : Tree σ) : Bool :=
  let (i, j) := (old.info, new.info)
  if j.cost < i.cost then true
  else if i.cost < j.cost then false
  else if i.weight < j.weight then true
  else if j.weight < i.weight then false
  else 0 < i.cost || old.compare new = .gt

end Tree

/-- Trees without those at the end that stand where the grammar has no place for them, and those. -/
def splitExtras {σ : Type} (ts : List (Tree σ)) : List (Tree σ) × List (Tree σ) :=
  let extras := ts.reverse.takeWhile fun t => t.info.extra
  (ts.take (ts.length - extras.length), extras.reverse)

end Anchored.Parsing
