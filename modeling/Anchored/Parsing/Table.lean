import Anchored.Parsing.Overlap

/-!
# The table of a grammar

The states of the automaton, made fewer: states with the same items become one where neither would
read a text otherwise for what the other knows, and a state that only puts one hidden thing in the
place of another is passed over. With each state comes what is looked for there: the mode says which
tokens, and then the layout.
-/

namespace Anchored.Parsing

/-- The tokens that are looked for at once. -/
structure Mode where
  /-- The spots that they may start with. -/
  starts : List Nat
  /-- The spots that they may start with after a blank. -/
  fresh : List Nat
  /-- The end of the text is looked for. -/
  finish : Bool
  deriving Inhabited

/-- A state of a table. -/
structure Place where
  /-- For every terminal, what it does. -/
  actions : Array (List Action)
  /-- For every rule, the state that it leads to; zero if there is none. -/
  gotos : Array Nat
  mode : Nat
  /-- Which of the tokens that the layout shows are looked for. -/
  outside : Nat
  deriving Inhabited

/-- All that a text is read by. -/
structure Table where
  symbols : Symbols
  lexicon : Lexicon
  reductions : Array Reduction
  places : Array Place
  modes : Array Mode
  keywords : Std.HashMap String Nat
  /-- The terminals that the layout shows. -/
  outside : Array Nat

/-- The token matches a text. -/
def Lexicon.accepts (x : Lexicon) (token : Nat) (s : String) : Bool :=
  let start : Option Run := some ⟨false, x.starts.getD token [], []⟩
  let stop := s.toList.foldl (fun r c => r.bind fun r => (x.take? [] r c).map Taken.run) start
  stop.any fun r => r.done.contains token

/-- What is known of the terminals of a grammar before its table is made. -/
structure Survey extends Plan where
  lexicon : Lexicon
  overlap : Overlap
  /-- The states of the automaton. -/
  states : Array State
  /-- For every state, the tokens that do something there. -/
  tokens : Array Nat
  /-- For every token, the tokens that do something where it does. -/
  together : Array Nat
  keywords : List Nat
  /-- The terminals that the layout shows. -/
  layout : Array Nat

/-- The token that keywords could be. -/
def word : Nat := 1

/-- Keywords: texts that could be the word, and are not the start of a text that could not. -/
def keywordsOf (l : Lexicon) : List Nat :=
  let texts := l.terminals.toList.zipIdx.filterMap fun (t, n) =>
    (t.form.bind Form.exact).map fun s => (s, n)
  let (words, others) := texts.partition fun (s, _) => l.accepts word s
  (words.filter fun (s, _) => !others.any fun (other, _) => s.isPrefixOf other).map Prod.snd

/-- What is known of the terminals of a grammar. -/
def Grammar.survey (g : Grammar) : Survey :=
  let plan := g.plan
  let s := plan.symbols
  let lexicon := Lexicon.of s.terminals g.blank
  let states := plan.states
  let inText := (List.range s.width).filter fun t =>
    (s.terminals[t]?.bind Terminal.form).isSome
  let tokens := states.map fun state =>
    inText.foldl (fun set t =>
      if (state.actions.getD t []).isEmpty then set else set ||| bit t) 0
  let sets := tokens.foldl (fun (m : Std.HashMap Nat Unit) set => m.insert set ()) ∅
  let together := (Array.range s.width).map fun t =>
    sets.fold (fun all set _ => if set.testBit t then all ||| set else all) 0
  { plan with
    lexicon
    overlap := plan.overlap lexicon g.samples
    states
    tokens
    together
    keywords := keywordsOf lexicon
    layout := (g.outside.map fun
      | .own name _ => s.terminal name
      | .shared name => s.terminal name).toArray }

namespace Survey

variable (x : Survey)

/-- The terminal is a token in the text. -/
def inText (t : Nat) : Bool :=
  (x.symbols.terminals[t]?.bind Terminal.form).isSome

/-- Only the layout shows the terminal. -/
def outsideOnly (t : Nat) : Bool :=
  t != 0 && !x.inText t

/-- The first state takes every token to go on after an error, but those that could hide one that no
other token outruns and that never stands beside them. -/
def recovering : Array (List Action) :=
  let o := x.overlap
  let all := (List.range x.symbols.width).filter x.inText
  let free := all.filter fun a => !all.any fun b =>
    a != b && !holds x.together a b && o.outruns a b
  let harmful (a : Nat) : Bool :=
    !free.contains a && !x.keywords.contains a && a != word &&
      free.any fun b => !holds x.together a b && o.hides a b
  (x.states.getD 0 default).actions.mapIdx fun t actions =>
    if t = 0 then [.recover]
    else if !actions.isEmpty then actions
    else if x.inText t && harmful t then []
    else [.recover]

/-- The survey with the first state as the one after an error. -/
def withRecovery : Survey :=
  let actions := x.recovering
  let tokens := ((List.range x.symbols.width).filter x.inText).foldl (fun set t =>
    if (actions.getD t []).isEmpty then set else set ||| bit t) 0
  { x with
    states := x.states.modify 0 fun s => { s with actions }
    tokens := x.tokens.set! 0 tokens }

/-- For every token, the tokens that it may not be looked for with. -/
def conflicts : Array Nat :=
  let o := x.overlap
  (Array.range x.symbols.width).map fun a =>
    (List.range x.symbols.width).foldl (fun set b =>
      let named := (a = word && x.keywords.contains b) || (b = word && x.keywords.contains a)
      if !named && (o.hides a b || holds o.beats a b) then set ||| bit b else set) 0

end Survey

/-- States in groups, and the group of each state. -/
structure Grouping where
  groups : Array (List Nat)
  ofState : Array Nat

namespace Grouping

/-- Parts a group: the states that do not differ from the first of it or from one another, in the
order in which they are compared, and the rest. -/
def part (differ : Nat → Nat → Bool) : List Nat → List Nat × List Nat
  | [] => ([], [])
  | a :: r =>
    let (stay, leave) := part differ (r.filter fun b => !differ a b)
    (a :: stay, r.filter (differ a) ++ leave)
termination_by l => l.length
decreasing_by
  simp only [List.length_cons, List.length_unattach]
  exact Nat.lt_succ_of_le
    (Nat.le_trans (List.length_filter_le ..) (Nat.le_of_eq List.length_attach))

/-- Parts every group; what leaves a group is a group of its own, which is parted in its turn. -/
def refine (differ : Grouping → Nat → Nat → Bool) (g : Grouping) : Grouping := Id.run do
  let mut g := g
  for i in [0:g.ofState.size] do
    if i < g.groups.size then
      let (stay, leave) := part (differ g) g.groups[i]!
      if !leave.isEmpty then
        let n := g.groups.size
        g := {
          groups := (g.groups.set! i stay).push leave
          ofState := leave.foldl (fun m state => m.set! state n) g.ofState }
  return g

/-- Parts groups until nothing differs any more. -/
def settle (differ : Grouping → Nat → Nat → Bool) : Nat → Grouping → Grouping
  | 0, g => g
  | limit + 1, g =>
    let finer := g.refine differ
    if finer.groups.size = g.groups.size then g else settle differ limit finer

end Grouping

namespace Survey

variable (x : Survey)

/-- Two states do different things with a terminal. -/
def clash (g : Grouping) : List Action → List Action → Bool
  | [], [] => false
  | .shift a again :: r, .shift b again' :: r' =>
    g.ofState[a]! != g.ofState[b]! || again != again' || clash g r r'
  | a :: r, b :: r' => a != b || clash g r r'
  | _, _ => true

/-- A state in which a terminal does nothing may not learn that it does something elsewhere. -/
def intrudes (conflicts : Array Nat) (state terminal : Nat) : Bool :=
  if terminal = 0 then false
  else
    x.layout.contains terminal || conflicts[terminal]! &&& x.tokens[state]! != 0

/-- Two states with the same items may not be one. -/
def apart (conflicts : Array Nat) (g : Grouping) (a b : Nat) : Bool :=
  let first := x.states[a]!.actions
  let second := x.states[b]!.actions
  (List.range x.symbols.width).any fun t =>
    match first[t]!, second[t]! with
    | [], [] => false
    | [], _ => x.intrudes conflicts a t
    | _, [] => x.intrudes conflicts b t
    | l, r => clash g l r

/-- The same symbol leads from two states to states that are not one. -/
def diverge (g : Grouping) (a b : Nat) : Bool :=
  let first := x.states[a]!
  let second := x.states[b]!
  let targets : List Action → List Action → Bool := fun l r =>
    match l.getLast?, r.getLast? with
    | some (.shift m _), some (.shift n _) => g.ofState[m]! != g.ofState[n]!
    | _, _ => false
  ((List.range x.symbols.width).any fun t => targets first.actions[t]! second.actions[t]!) ||
    ((List.range first.gotos.size).any fun n =>
      let (m, n) := (first.gotos[n]!, second.gotos[n]!)
      m != 0 && n != 0 && g.ofState[m]! != g.ofState[n]!)

/-- The groups of states that become one. -/
def grouping : Grouping :=
  let ofState := x.states.map State.core
  let count := ofState.foldl (fun n core => max n (core + 1)) 0
  let groups := (List.range ofState.size).foldl
    (fun (groups : Array (List Nat)) n => groups.modify ofState[n]! (n :: ·))
    (Array.replicate count [])
  let cores : Grouping := ⟨groups.map List.reverse, ofState⟩
  (cores.refine (x.apart x.conflicts)).settle x.diverge x.states.size

/-- One state for each group; where its states know of a terminal, the last of them counts. -/
def merged : Array State :=
  let g := x.grouping
  let renumber : Action → Action
    | .shift n again => .shift g.ofState[n]! again
    | a => a
  g.groups.map fun states => Id.run do
    let mut actions := Array.replicate x.symbols.width []
    let mut gotos := Array.replicate x.starts.size 0
    for n in states do
      let state := x.states[n]!
      for t in [0:x.symbols.width] do
        if !state.actions[t]!.isEmpty then
          actions := actions.set! t (state.actions[t]!.map renumber)
      for rule in [0:x.starts.size] do
        if state.gotos[rule]! != 0 then
          gotos := gotos.set! rule g.ofState[state.gotos[rule]!]!
    return ⟨actions, gotos, 0⟩

/-- The rule that a state only puts in the place of one other thing, where no tree shows it. -/
def relay? (aliased : List Nat) (state : State) : Option Nat :=
  let actions := (state.actions.toList.flatten).filter (· != .pass)
  match actions with
  | .reduce n :: _ =>
    let r := x.reductions[n]!
    let rule := r.symbol - x.symbols.width
    let plain := actions.all fun
      | .reduce m =>
        let s := x.reductions[m]!
        s.symbol = r.symbol && s.length = 1 && s.weight = 0 && s.shownAs.isEmpty && !s.labelled
      | _ => false
    let hidden := match x.symbols.kind? r.symbol with
      | some .hidden | some .repetition => true
      | _ => false
    if plain && hidden && !aliased.contains r.symbol then some rule else none
  | _ => none

/-- The state that one leads to when relays are passed over. -/
def beyond (relays : Array (Option Nat)) (gotos : Array Nat) : Nat → Nat → Nat
  | 0, n => n
  | limit + 1, n =>
    match relays[n]! with
    | none => n
    | some rule => if gotos[rule]! = 0 then n else beyond relays gotos limit gotos[rule]!

/-- States that pass relays over. -/
def direct (states : Array State) : Array State :=
  let aliased := (x.productions.toList.flatten.flatMap fun p => p.steps.filterMap fun s =>
    if s.setting.shownAs.isSome then some s.symbol else none).eraseDups
  let relays := states.map (x.relay? aliased)
  states.map fun s =>
    let past (n : Nat) : Nat := if n = 0 then 0 else beyond relays s.gotos x.starts.size n
    { s with
      actions := s.actions.map fun actions => actions.map fun
        | .shift n again => .shift (past n) again
        | a => a
      gotos := s.gotos.map past }

/-- Marks the states that the marked ones lead to; `limit` bounds the number of rounds. -/
def reach (states : Array State) : Nat → List Nat → Array Bool → Array Bool
  | 0, _, seen => seen
  | _, [], seen => seen
  | limit + 1, n :: todo, seen =>
    let state := states[n]!
    let next := (state.actions.toList.flatten.filterMap fun
      | .shift m _ => some m
      | _ => none) ++ state.gotos.toList
    let (todo, seen) := next.foldl
      (fun ((todo, seen) : List Nat × Array Bool) m =>
        if seen[m]! then (todo, seen) else (m :: todo, seen.set! m true)) (todo, seen)
    reach states limit todo seen

/-- The states that a text can lead to, numbered anew. -/
def reachable (states : Array State) : Array State :=
  let seen := ((Array.replicate states.size false).set! 0 true).set! 1 true
  let seen := reach states states.size [0, 1] seen
  let (numbers, _) := seen.foldl (fun ((numbers, n) : Array Nat × Nat) used =>
    (numbers.push n, if used then n + 1 else n)) (#[], 0)
  let kept := states.zipIdx.filterMap fun (s, n) => if seen[n]! then some s else none
  kept.map fun s =>
    { s with
      actions := s.actions.map fun actions => actions.map fun
        | .shift n again => .shift numbers[n]! again
        | a => a
      gotos := s.gotos.map fun n => numbers[n]! }

/-- For every token, the tokens that it may not be looked for with in a state where only one of the
two does something. -/
def rivals : Array Nat :=
  let o := x.overlap
  (Array.range x.symbols.width).map fun a =>
    (List.range x.symbols.width).foldl (fun set b =>
      let rival := o.hides a b || holds o.stops a b ||
        (!holds x.together a b && (o.touches a b || o.touches b a))
      if rival then set ||| bit b else set) 0

/-- The tokens of two states may be looked for at once. -/
def compatible (rivals : Array Nat) (a b : Nat) : Bool :=
  (List.range x.symbols.width).all fun t =>
    t = 0 || a.testBit t = b.testBit t ||
      rivals[t]! &&& (if a.testBit t then b else a) = 0

/-- The sets of terminals that are looked for, and which of them each state looks for. A state joins
the first set that it is compatible with. -/
def modes (states : Array State) : Array Nat × Array Nat :=
  let rivals := x.rivals
  states.foldl (fun ((sets, ofState) : Array Nat × Array Nat) s =>
    let wanted := (List.range x.symbols.width).foldl (fun set t =>
      if (s.actions[t]!).isEmpty || x.outsideOnly t then set
      else set ||| bit (if x.keywords.contains t then word else t)) 0
    match sets.findIdx? fun set => x.compatible rivals set wanted with
    | some k => (sets.modify k (· ||| wanted), ofState.push k)
    | none => (sets.push wanted, ofState.push sets.size)) (#[], #[])

/-- The mode that looks for a set of terminals. -/
def mode (set : Nat) : Mode :=
  let tokens := (List.range x.symbols.width).filter fun t => set.testBit t && x.inText t
  { starts := tokens.flatMap fun t => x.lexicon.starts[t]!
    fresh := (tokens.filter fun t => !x.lexicon.glued t).flatMap fun t => x.lexicon.starts[t]!
    finish := set.testBit 0 }

end Survey

/-- The table of a grammar. -/
def Grammar.table (g : Grammar) : Table :=
  let x := g.survey.withRecovery
  let states := Survey.reachable (x.direct x.merged)
  let (sets, ofState) := x.modes states
  { symbols := x.symbols
    lexicon := x.lexicon
    reductions := x.reductions
    places := states.mapIdx fun n s =>
      { actions := s.actions
        gotos := s.gotos
        mode := ofState[n]!
        outside := (List.range x.layout.size).foldl (fun set i =>
          if (s.actions[x.layout[i]!]!).isEmpty then set else set ||| bit i) 0 }
    modes := sets.map x.mode
    keywords := x.keywords.foldl (fun (m : Std.HashMap String Nat) t =>
      match (x.symbols.terminals[t]?.bind Terminal.form).bind Form.exact with
      | some s => m.insert s t
      | none => m) ∅
    outside := x.layout }

end Anchored.Parsing
