import Anchored.Parsing.Rule

/-!
# Productions

The rules of a grammar as productions: each alternative of a rule is a sequence of steps, and each
step is one symbol with all that the rule says of it. What a rule repeats becomes a rule of its own,
one that is either what is repeated or two of itself; and a rule that stands only for its
alternatives is replaced by them.
-/

namespace Anchored.Parsing

/-- What the rule around a step says of it. -/
structure Setting where
  rank : Option Int
  side : Option Side
  shownAs : Option String
  label : Option String
  deriving DecidableEq, Repr, Inhabited

/-- One symbol of a production. -/
structure Step where
  symbol : Nat
  setting : Setting
  deriving DecidableEq, Repr, Inhabited

/-- One alternative of a rule. -/
structure Production where
  rule : Nat
  steps : List Step
  weight : Int
  deriving DecidableEq, Repr, Inhabited

/-- The weight that counts where a part has the one and another part the other: the heavier, and of
two that are equally heavy the first. -/
def heavier (first second : Int) : Int :=
  if first.natAbs < second.natAbs then second else first

/-- A list with its last entry changed. -/
def changeLast (f : α → α) : List α → List α
  | [] => []
  | [a] => [f a]
  | a :: r => a :: changeLast f r

/-- The alternatives of a rule as steps and a weight, where `symbol` numbers texts, names and
repetitions. The rank of a part holds for its steps but for the last, unless the production ends
with it: what follows a part is not of the part's rank. -/
def Rule.alternatives (symbol : Rule → Nat) : Rule → Setting → Bool → List (List Step × Int)
  | .nothing, _, _ => [([], 0)]
  | .seq a b, s, last =>
    (a.alternatives symbol s false).flatMap fun (first, w) =>
      (b.alternatives symbol s last).map fun (second, w') => (first ++ second, heavier w w')
  | .either a b, s, last => a.alternatives symbol s last ++ b.alternatives symbol s last
  | .part label a, s, last => a.alternatives symbol { s with label } last
  | .shownAs name a, s, last => a.alternatives symbol { s with shownAs := name } last
  | .ranked rank side a, s, last =>
    let inner := a.alternatives symbol { s with rank, side := side.or s.side } last
    if last then inner
    else
      inner.map fun (steps, w) =>
        (changeLast (fun t => { t with setting.rank := s.rank, setting.side := s.side }) steps, w)
  | .weighted weight a, s, last =>
    (a.alternatives symbol s last).map fun (steps, w) => (steps, heavier weight w)
  | r, s, _ => [([⟨symbol r, s⟩], 0)]

/-- A production with the step before `after` replaced by an alternative of its symbol, whose steps
keep what was said of the replaced one. -/
def Production.spliced (p : Production) (before : List Step) (s : Step) (after : List Step)
    (q : Production) : Production :=
  let inner := q.steps.map fun t =>
    { t with
      setting.shownAs := s.setting.shownAs.or t.setting.shownAs
      setting.label := s.setting.label.or t.setting.label }
  let inner := changeLast (fun t =>
    { t with
      setting.rank := t.setting.rank.or s.setting.rank
      setting.side := t.setting.side.or s.setting.side }) inner
  ⟨p.rule, before ++ inner ++ after, heavier p.weight q.weight⟩

/-- A production without inlined symbols, in as many ways as there are alternatives for them. A
grammar whose inlined rules nest deeper than `depth` keeps the innermost. -/
def Production.inline (inlined : Nat → Option (List Production)) :
    Nat → Production → List Production
  | 0, p => [p]
  | depth + 1, p =>
    let before := p.steps.takeWhile fun s => (inlined s.symbol).isNone
    match p.steps.drop before.length with
    | [] => [p]
    | s :: after =>
      ((inlined s.symbol).getD []).flatMap fun q =>
        inline inlined depth (p.spliced before s after q)

/-- Symbols and productions of a grammar, with repetitions as rules of their own. The last rule is
that of a whole text: it consists of the first rule. -/
structure Productions where
  symbols : Symbols
  /-- The productions of every rule; none for an inlined one. -/
  ofRule : Array (List Production)

/-- The greatest number of inlined symbols that are replaced in one production. -/
def inliningDepth : Nat := 16

/-- The productions of a grammar. -/
def Grammar.productions (g : Grammar) : Productions :=
  let symbols := g.symbols
  let repeated := (symbols.rules.toList.flatMap fun r => r.2.2.repeated).foldl
    (fun found r => if found.contains r then found else found.push r) #[]
  let width := symbols.width
  let symbol : Rule → Nat
    | .text s => symbols.terminal s
    | .ref name => symbols.find name
    | .many a => width + symbols.rules.size + (repeated.findIdx? (· == a)).getD 0
    | _ => 0
  let alternatives (i : Nat) (r : Rule) : List Production :=
    ((r.alternatives symbol default true).map fun (steps, w) => ⟨i, steps, w⟩).eraseDups
  let named : List (Kind × List Production) :=
    symbols.rules.toList.zipIdx.map fun ((_, kind, r), i) => (kind, alternatives i r)
  let base := symbols.rules.size
  let repetitions : List (Kind × List Production) := repeated.toList.zipIdx.map fun (r, i) =>
    let itself : Step := ⟨width + base + i, default⟩
    (Kind.repetition, ⟨base + i, [itself, itself], 0⟩ :: alternatives (base + i) r)
  let whole := base + repeated.size
  let goal : Production := ⟨whole, [⟨width, default⟩], 0⟩
  let all : Array (Kind × List Production) :=
    (named ++ repetitions ++ [(Kind.hidden, [goal])]).toArray
  let inlined (s : Nat) : Option (List Production) :=
    if s < width then none
    else
      match all[s - width]? with
      | some (.inlined, ps) => some ps
      | _ => none
  { symbols := { symbols with
      rules := symbols.rules ++ repeated.map (fun r => ("", .repetition, r)) ++
        #[("", .hidden, .nothing)] }
    ofRule := all.map fun (kind, ps) =>
      if kind == .inlined then []
      else (ps.flatMap (Production.inline inlined inliningDepth)).eraseDups }

end Anchored.Parsing
