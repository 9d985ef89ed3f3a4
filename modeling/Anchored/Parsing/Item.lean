import Anchored.Parsing.Production
import Std.Data.HashMap

/-!
# Items

An item is a production of which some steps are done. Items that go on in the same way are one: of
the steps that are done only what a tree shows of them counts, and their symbols only where a hidden
one among them may have brought labels along. Items are numbered in the order in which they take
precedence.
-/

namespace Anchored.Parsing

/-- What is made of a production that is done. -/
structure Reduction where
  /-- The symbol of the rule. -/
  symbol : Nat
  length : Nat
  weight : Int
  /-- Under which name each part is a node, if not under that of its rule; absent at the end. -/
  shownAs : List (Option String)
  /-- Some part has a label. -/
  labelled : Bool
  deriving DecidableEq, Repr, Inhabited

/-- A production of which some steps are done. -/
structure Item where
  rule : Nat
  /-- The steps that are done. -/
  done : Nat
  /-- The rank of the last step that is done. -/
  rank : Option Int
  side : Option Side
  /-- The symbol of the next step. -/
  next : Option Nat
  /-- The symbol of the step after the next. -/
  later : Option Nat
  /-- The item with the next step done. -/
  advanced : Nat
  /-- What is made of the production when all is done. -/
  reduction : Nat
  deriving Repr, Inhabited

/-- All items of a grammar. -/
structure Items where
  symbols : Symbols
  items : Array Item
  /-- For every rule, its items of which nothing is done. -/
  starts : Array (List Nat)
  reductions : Array Reduction
  /-- The rule of a whole text. -/
  whole : Nat
  productions : Array (List Production)

/-- A list without the absent entries at its end. -/
def dropAbsent (l : List (Option α)) : List (Option α) :=
  (l.reverse.dropWhile Option.isNone).reverse

/-- What is made of a production. -/
def Production.reduction (width : Nat) (p : Production) : Reduction where
  symbol := width + p.rule
  length := p.steps.length
  weight := p.weight
  shownAs := dropAbsent (p.steps.map fun s => s.setting.shownAs)
  labelled := p.steps.any fun s => s.setting.label.isSome

/-- Which rules bring labels along where they are hidden: those with a label of their own, and those
that name such a rule. Each round looks one rule deeper. -/
def labelledRules (s : Symbols) (productions : Array (List Production)) : Array Bool :=
  let round (known : Array Bool) : Array Bool :=
    productions.map fun ps => ps.any fun p => p.steps.any fun t =>
      t.setting.label.isSome ||
        (s.width ≤ t.symbol && t.setting.shownAs.isNone &&
          s.kind? t.symbol != some .shown && known.getD (t.symbol - s.width) false)
  Nat.repeat round productions.size (productions.map fun _ => false)

/-- The number of a name among some. -/
def numbered (names : List String) : Option String → Int
  | none => 0
  | some name => (names.findIdx? (· == name)).getD 0 + 1

/-- A number that may be absent, as part of a key. -/
def keyOf : Option Int → List Int
  | none => [0, 0]
  | some n => [1, n]

/-- A side that may be absent, as part of a key. -/
def sideKey : Option Side → Int
  | none => 0
  | some .left => 1
  | some .right => 2

/-- What tells an item from others: two items with the same key are one, and items are in the order
of their keys. -/
def Production.key (bringsLabels : Nat → Bool) (names : List String) (p : Production)
    (done : Nat) : List Int :=
  let (past, coming) := p.steps.splitAt done
  let seen := past.any fun s => bringsLabels s.symbol
  let last := past.getLast?.map Step.setting
  let shown (s : Setting) : List Int := [numbered names s.shownAs, numbered names s.label]
  [Int.ofNat done, p.rule, p.weight, p.steps.length] ++ keyOf (last.bind Setting.rank) ++
    [sideKey (last.bind Setting.side), if seen then 1 else 0] ++
    (past.flatMap fun s => shown s.setting ++ if seen then [Int.ofNat s.symbol] else []) ++
    (coming.flatMap fun s =>
      [Int.ofNat s.symbol] ++ keyOf s.setting.rank ++ [sideKey s.setting.side] ++ shown s.setting)

/-- The order of keys. -/
def keyLE : List Int → List Int → Bool
  | [], _ => true
  | _ :: _, [] => false
  | a :: r, b :: s => a < b || (a == b && keyLE r s)

/-- The items of a grammar. -/
def Productions.items (g : Productions) : Items :=
  let s := g.symbols
  let all := g.ofRule.toList.flatten
  let labelled := labelledRules s g.ofRule
  let bringsLabels (symbol : Nat) : Bool :=
    s.width ≤ symbol && s.kind? symbol != some .shown && labelled.getD (symbol - s.width) false
  let names := (all.flatMap fun p => p.steps.flatMap fun t =>
    [t.setting.shownAs, t.setting.label].filterMap id).mergeSort.eraseReps
  let key := Production.key bringsLabels names
  let keyed := all.flatMap fun p =>
    let keys := (List.range (p.steps.length + 1)).map (key p)
    keys.zipIdx.map fun (k, done) => (k, p, done, keys[done + 1]?)
  let sorted := (keyed.mergeSort fun a b => keyLE a.1 b.1).foldl
    (fun (found : Array (List Int × Production × Nat × Option (List Int))) e =>
      if found.back?.any fun b => b.1 == e.1 then found else found.push e) #[]
  let numbers := sorted.zipIdx.foldl
    (fun (m : Std.HashMap (List Int) Nat) (e, i) => m.insert e.1 i) ∅
  let reductions := (all.map (Production.reduction s.width)).foldl
    (fun (found : Array Reduction) r => if found.contains r then found else found.push r) #[]
  { symbols := s
    items := sorted.map fun (_, p, done, following) =>
      let last := (p.steps.take done).getLast?.map Step.setting
      { rule := p.rule
        done
        rank := last.bind Setting.rank
        side := last.bind Setting.side
        next := p.steps[done]?.map Step.symbol
        later := p.steps[done + 1]?.map Step.symbol
        advanced := (following.map fun k => numbers.getD k 0).getD 0
        reduction := (reductions.findIdx? (· == p.reduction s.width)).getD 0 }
    starts := g.ofRule.map fun ps => (ps.map fun p => numbers.getD (key p 0) 0).eraseDups
    reductions
    whole := g.ofRule.size - 1
    productions := g.ofRule }

end Anchored.Parsing
