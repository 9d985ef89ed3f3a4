import Anchored.Parsing.Item

/-!
# The automaton of a grammar

A state is a set of items, each with the terminals that may come after it. The automaton has a state
for every such set that some beginning of a text leads to, and says of each state what a next
terminal does: it leads to a state, or something is made of what came last. Where a terminal does
both, or makes different things, ranks and sides decide; what they leave undecided is kept, and then
a text is read in several ways at once.

Sets of terminals are numbers, in which the bit of a terminal says whether it is in the set.
-/

namespace Anchored.Parsing

/-- What a terminal does in a state. -/
inductive Action where
  /-- The terminal leads to a state. With `again` it goes on with a repetition that could as well be
  made of two. -/
  | shift (state : Nat) (again : Bool)
  /-- The terminal may stand anywhere, and the state stays. -/
  | pass
  | reduce (reduction : Nat)
  | accept
  /-- The terminal may show how to go on after an error. -/
  | recover
  deriving DecidableEq, Repr, Inhabited

/-- A state of an automaton. -/
structure State where
  /-- For every terminal, what it does. -/
  actions : Array (List Action)
  /-- For every rule, the state that it leads to; zero if there is none. -/
  gotos : Array Nat
  /-- States with the same items share a number. -/
  core : Nat
  deriving Inhabited

/-- The set of one terminal. -/
def bit (terminal : Nat) : Nat :=
  1 <<< terminal

/-- The symbols that what a symbol stands for may start with, or end with if `last`. -/
def borders (s : Symbols) (productions : Array (List Production)) (last : Bool) : Array Nat :=
  let edge (p : Production) : Option Step := if last then p.steps.getLast? else p.steps.head?
  let edges := productions.map fun ps => (ps.filterMap fun p => (edge p).map Step.symbol).eraseDups
  let terminals := (Array.range s.width).map bit
  let round (rules : Array Nat) : Array Nat :=
    edges.map fun symbols => symbols.foldl (fun set symbol =>
      set ||| if symbol < s.width then bit symbol else rules.getD (symbol - s.width) 0) 0
  terminals ++ Nat.repeat round productions.size (productions.map fun _ => 0)

/-- An item that a rule brings along when it comes next. -/
structure Addition where
  item : Nat
  /-- The terminals that may come after it whatever comes after the rule. -/
  after : Nat
  /-- What may come after the rule may come after it. -/
  inherits : Bool
  deriving Inhabited

/-- The items that each rule brings along. -/
def additions (x : Items) (firsts : Array Nat) : Array (Array Addition) :=
  let width := x.symbols.width
  -- the rules a rule may start with, and what may come after them there
  let edges := x.starts.map fun items => (items.filterMap fun i => do
    let item ← x.items[i]?
    let next ← item.next
    guard (width ≤ next)
    some (next - width, item.later.map fun symbol => firsts.getD symbol 0)).eraseDups
  x.starts.mapIdx fun rule _ => Id.run do
    let mut after := x.starts.map fun _ => 0
    let mut inherits := x.starts.map fun _ => false
    let mut reached := x.starts.map fun _ => false
    inherits := inherits.set! rule true
    reached := reached.set! rule true
    for _ in [0:x.starts.size] do
      let mut stable := true
      for i in [0:x.starts.size] do
        if reached[i]! then
          for (target, following) in edges[i]! do
            let (set, same) := match following with
              | some set => (set, false)
              | none => (after[i]!, inherits[i]!)
            let set := after[target]! ||| set
            let same := inherits[target]! || same
            if !reached[target]! || set != after[target]! || same != inherits[target]! then
              stable := false
              reached := reached.set! target true
              after := after.set! target set
              inherits := inherits.set! target same
      if stable then break
    let mut found := #[]
    for i in [0:x.starts.size] do
      if reached[i]! then
        for item in x.starts[i]! do
          found := found.push ⟨item, after[i]!, inherits[i]!⟩
    return found

/-- What the states of an automaton are made from. -/
structure Plan extends Items where
  firsts : Array Nat
  added : Array (Array Addition)
  /-- Terminals that may stand anywhere. -/
  anywhere : List Nat

/-- The plan for the states of a grammar. -/
def Grammar.plan (g : Grammar) : Plan :=
  let x := g.productions.items
  let firsts := borders x.symbols x.productions false
  { x with firsts, added := additions x firsts, anywhere := g.anywhere.map x.symbols.terminal }

/-- Items with the terminals that may come after each, in the order of the items. -/
abbrev Kernel := Array (Nat × Nat)

namespace Plan

variable (x : Plan)

/-- For every item, the terminals that may come after it in a state, none if it is not there. -/
def closure (kernel : Kernel) : Array Nat := Id.run do
  let mut looks := Array.replicate x.items.size 0
  for (i, look) in kernel do
    looks := looks.modify i (· ||| look)
    let item := x.items[i]!
    match item.next with
    | none => pure ()
    | some next =>
      if x.symbols.width ≤ next then
        let following := match item.later with
          | some symbol => x.firsts[symbol]!
          | none => look
        for a in x.added[next - x.symbols.width]! do
          looks := looks.modify a.item
            (· ||| a.after ||| if a.inherits then following else 0)
  return looks

/-- Items in order, each once. -/
def kernelOf (entries : Kernel) : Kernel :=
  (entries.qsort fun a b => a.1 < b.1).foldl (fun found (i, look) =>
    match found.back? with
    | some (j, other) => if i = j then found.pop.push (i, other ||| look) else found.push (i, look)
    | none => found.push (i, look)) #[]

/-- For every symbol, the kernel of the state that it leads to. -/
def successors (looks : Array Nat) : Array Kernel := Id.run do
  let mut found := Array.replicate (x.symbols.width + x.starts.size) #[]
  for h : i in [0:looks.size] do
    let look := looks[i]
    if look != 0 then
      let item := x.items[i]!
      match item.next with
      | none => pure ()
      | some next => found := found.modify next (·.push (item.advanced, look))
  return found.map kernelOf

end Plan

/-- The order of ranks; no rank is zero. -/
def compareRanks (a b : Option Int) : Ordering :=
  compare (a.getD 0) (b.getD 0)

/-- What a terminal may do in a state by making something. -/
structure Contest where
  /-- What it may make, first things first. -/
  actions : Array Action := #[]
  rank : Option Int := none
  /-- Some production groups to the left, to the right, or to no side. -/
  left : Bool := false
  right : Bool := false
  sideless : Bool := false
  deriving Inhabited

/-- A contest with a production that is done. One of a higher rank replaces the others. -/
def Contest.add (c : Contest) (item : Item) (action : Action) : Contest :=
  let joined (c : Contest) : Contest :=
    { actions := c.actions.push action
      rank := item.rank
      left := c.left || item.side == some .left
      right := c.right || item.side == some .right
      sideless := c.sideless || item.side == none }
  if c.actions.isEmpty then joined c
  else
    match compareRanks item.rank c.rank with
    | .gt => joined {}
    | .eq => joined c
    | .lt => c

namespace Plan

variable (x : Plan)

/-- For every terminal, what it may make in a state. -/
def contests (looks : Array Nat) : Array Contest := Id.run do
  let mut found : Array Contest := Array.replicate x.symbols.width {}
  for h : i in [0:looks.size] do
    let look := looks[i]
    if look != 0 then
      let item := x.items[i]!
      if item.next.isNone then
        let action := if item.rule = x.whole then .accept else .reduce item.reduction
        for terminal in [0:x.symbols.width] do
          if look.testBit terminal then
            found := found.modify terminal fun c => c.add item action
  return found

/-- What a terminal does that both makes something and leads to a state. -/
def settle (looks : Array Nat) (terminal : Nat) (c : Contest) (target : Nat) :
    List Action := Id.run do
  let set := bit terminal
  let mut rules : List Nat := []
  let mut lower := false
  let mut higher := false
  for h : i in [0:looks.size] do
    let look := looks[i]
    if look != 0 then
      let item := x.items[i]!
      match item.next with
      | some next =>
        if 0 < item.done && x.firsts[next]! &&& set != 0 then
          if item.rule != x.whole && !rules.contains item.rule then rules := item.rule :: rules
          match compareRanks item.rank c.rank with
          | .gt => higher := true
          | .lt => lower := true
          | .eq => pure ()
      | none =>
        if look &&& set != 0 && item.rule != x.whole && !rules.contains item.rule then
          rules := item.rule :: rules
  let made := c.actions.toList
  let repeats := match rules with
    | [rule] => x.symbols.kind? (x.symbols.width + rule) == some Kind.repetition
    | _ => false
  if repeats then return made ++ [.shift target true]
  let shift : Action := .shift target false
  match higher, lower with
  | true, false => return [shift]
  | false, true => return made
  | true, true => return made ++ [shift]
  | false, false =>
    match c.left, c.sideless, c.right with
    | true, false, false => return made
    | false, false, true => return [shift]
    | _, _, _ => return made ++ [shift]

end Plan

/-- The states found so far. -/
structure Growth where
  states : Array State
  kernels : Array Kernel
  known : Std.HashMap Kernel Nat
  cores : Std.HashMap (Array Nat) Nat

/-- The state of a kernel, which is a new one if no state has it yet. -/
def Growth.state (g : Growth) (kernel : Kernel) : Growth × Nat :=
  match g.known[kernel]? with
  | some n => (g, n)
  | none =>
    let ⟨states, kernels, known, cores⟩ := g
    let n := states.size
    let items := kernel.map Prod.fst
    let core := cores.getD items cores.size
    (⟨states.push ⟨#[], #[], core⟩, kernels.push kernel, known.insert kernel n,
      cores.insertIfNew items core⟩, n)

/-- Works out what the terminals and rules do in a state. -/
def Plan.settleState (x : Plan) (g : Growth) (n : Nat) : Growth := Id.run do
  let looks := x.closure g.kernels[n]!
  let contests := x.contests looks
  let targets := x.successors looks
  let mut g := g
  let mut actions := Array.mkEmpty x.symbols.width
  for terminal in [0:x.symbols.width] do
    let c := contests[terminal]!
    let kernel := targets[terminal]!
    if kernel.isEmpty then
      let made := c.actions.toList
      actions := actions.push
        (if made.isEmpty && x.anywhere.contains terminal then [.pass] else made)
    else
      let (grown, target) := g.state kernel
      g := grown
      actions := actions.push
        (if c.actions.isEmpty then [.shift target false] else x.settle looks terminal c target)
  let mut gotos := Array.mkEmpty x.starts.size
  for rule in [0:x.starts.size] do
    let kernel := targets[x.symbols.width + rule]!
    if kernel.isEmpty then
      gotos := gotos.push 0
    else
      let (grown, target) := g.state kernel
      g := grown
      gotos := gotos.push target
  return { g with states := g.states.modify n fun s => { s with actions, gotos } }

/-- Works out all states from one on; `limit` bounds their number. -/
def Plan.grow (x : Plan) : Nat → Nat → Growth → Growth
  | 0, _, g => g
  | limit + 1, n, g =>
    if n < g.states.size then x.grow limit (n + 1) (x.settleState g n) else g

/-- A greater number than any grammar here has states. -/
def stateLimit : Nat := 65536

/-- The states of a grammar. The first has no items: a text is there while it is not read as what
came before it. The second is that of the beginning. -/
def Plan.states (x : Plan) : Array State :=
  let start := (x.starts.getD x.whole []).map fun i => (i, bit 0)
  let (g, _) := (⟨#[], #[], ∅, ∅⟩ : Growth).state #[]
  let (g, _) := g.state start.toArray
  (x.grow stateLimit 0 g).states

end Anchored.Parsing
