import Anchored.Parsing.Lookahead

/-!
# Reading a text

A text is read in several ways at once where the table leaves it open how. A reading to which the
next token means nothing is paused. When every reading is, the first goes on as if the token that it
lacks were there, or goes back to a place where the next token means something and passes over what
came between, or passes over the token. Of readings that have got equally far, the ones that cost
much more than another are given up.
-/

namespace Anchored.Parsing

/-- How a reading compares with others. -/
structure Rating where
  cost : Nat
  /-- The number of nodes since the last error. -/
  since : Nat
  weight : Int
  /-- The reading is in the middle of an error. -/
  inError : Bool

/-- Which of two readings to go on with. -/
inductive Choice where
  | takeLeft
  | preferLeft
  | none
  | preferRight
  | takeRight
  deriving DecidableEq

/-- The difference in cost, times the nodes since the last error, above which a reading is given
up. -/
def costLimit : Nat := 1600

/-- Which of two readings to go on with. -/
def Rating.choose (a b : Rating) : Choice :=
  if !a.inError && b.inError then if a.cost < b.cost then .takeLeft else .preferLeft
  else if a.inError && !b.inError then if b.cost < a.cost then .takeRight else .preferRight
  else if a.cost < b.cost then
    if costLimit < (b.cost - a.cost) * (1 + a.since) then .takeLeft else .preferLeft
  else if b.cost < a.cost then
    if costLimit < (a.cost - b.cost) * (1 + b.since) then .takeRight else .preferRight
  else if b.weight < a.weight then .preferLeft
  else if a.weight < b.weight then .preferRight
  else .none

variable {σ : Type} [BEq σ]

namespace Readings

/-- The rating of a head. -/
def rate (r : Readings σ) (v : Nat) : Readings σ × Rating :=
  let (r, since) := r.sinceError v
  let paused := (r.head v).standing matches .paused _
  (r, { cost := r.cost v + if paused then costs.skippedTree else 0
        since
        weight := (r.top v).weight
        inError := paused || r.state v = 0 })

/-- Another reading is better than what a head would be at a cost. -/
def better (r : Readings σ) (v : Nat) (cost : Nat) : Readings σ × Bool :=
  if r.finished.any fun t => t.info.cost ≤ cost then (r, true)
  else
    let reach := (r.top v).reach.bytes
    let (r, since) := r.sinceError v
    let own : Rating := ⟨cost, since, (r.top v).weight, false⟩
    (List.range r.heads.size).foldl (fun ((r, found) : Readings σ × Bool) i =>
      if found || i = v || !(r.head i).active || (r.top i).reach.bytes < reach then (r, found)
      else
        let (r, other) := r.rate i
        match own.choose other with
        | .takeRight => (r, true)
        | .preferRight => (r, r.canMerge i v)
        | _ => (r, false)) (r, false)

/-- The readings with one head for all that could be one with it among some, if there is one. -/
def mergeInto? (r : Readings σ) (among : List Nat) (v : Nat) : Option (Readings σ) :=
  among.findSome? fun j => r.merge? j v

/-- The readings without the heads from a number on that satisfy a test. -/
def removeFrom (r : Readings σ) (first : Nat) (p : Head σ → Bool) : Readings σ :=
  let kept := (r.heads.toList.drop first).filter fun h => !p h
  { r with heads := r.heads.extract 0 first ++ kept.toArray }

/-- Keeps a reading of the whole text if it is the best so far. -/
def finish (r : Readings σ) (t : Tree σ) : Readings σ :=
  { r with
    accepted := r.accepted + 1
    finished := match r.finished with
      | none => some t
      | some old => if old.improves t then some t else some old }

/-- Takes a head for a reading of the whole text. -/
def accept (r : Readings σ) (v : Nat) (lookahead : Tree σ) : Readings σ :=
  let r := r.push v (some lookahead) 1
  let (r, groups) := r.popAll v
  let r := (groups.flatMap Prod.snd).foldl (fun r trees =>
    let (body, extras) := splitExtras trees
    match body.getLast? with
    | none => r
    | some t =>
      r.finish (.make t.info.label t.info.shown t.info.aliases
        (body.dropLast ++ t.parts ++ extras))) r
  let r := match groups with
    | (n, _) :: _ => r.remove n
    | [] => r
  r.setHead v fun h => { h with standing := .halted }

/-- The next token leads to a state. -/
def shift (r : Readings σ) (v state : Nat) (lookahead : Tree σ) (extra : Bool) : Readings σ :=
  let t := .node { lookahead.info with extra } lookahead.parts
  let r := r.push v (some t) state
  if t.info.laidOut then r.setHead v fun h => { h with layout := t.info.layout } else r

/-- A head goes back to a state so many trees before, and what is between is skipped. -/
def returnTo (r : Readings σ) (v depth goal : Nat) : Readings σ × Bool :=
  let (r, groups) := r.popLength v depth
  groups.foldl (fun ((r, found) : Readings σ × Bool) (u, ways) =>
    if r.state u != goal then
      (r.setHead u fun h => { h with standing := .halted }, found)
    else
      let (r, skipped) := r.popSkipped u
      let parts := (skipped.head?.map Tree.parts).getD []
      let (body, extras) := splitExtras (parts ++ ways.headD [])
      let r := if body.isEmpty then r else r.push u (some (Tree.skip body).asExtra) goal
      (extras.foldl (fun r t => r.push u (some t) goal) r, true)) (r, false)

/-- Puts a head in its place among those before it, from `j` on; gives the number of the head to
look at next. -/
def rank (own : Rating) : Nat → Nat → Nat → Readings σ → Readings σ × Nat
  | 0, v, _, r => (r, v + 1)
  | limit + 1, v, j, r =>
    if v ≤ j then (r, v + 1)
    else
      let (r, other) := r.rate j
      match other.choose own with
      | .takeLeft => (r.remove v, v)
      | .takeRight => rank own limit (v - 1) j (r.remove j)
      | choice =>
        match r.merge? j v with
        | some r => (r, v)
        | none =>
          let r := if choice = .preferRight then
              { r with heads := r.heads.swapIfInBounds v j }
            else r
          rank own limit v (j + 1) r

/-- Gives up heads that are not worth going on with, from `v` on; gives the least cost of a head
that is in no error, if it is less than `least`. -/
def condense : Nat → Nat → Option Nat → Readings σ → Readings σ × Option Nat
  | 0, _, least, r => (r, least)
  | limit + 1, v, least, r =>
    if r.heads.size ≤ v then (r, least)
    else if (r.head v).halted then condense limit v least (r.remove v)
    else
      let (r, own) := r.rate v
      let least := if own.inError then least
        else some (match least with
          | some n => min n own.cost
          | none => own.cost)
      let (r, next) := rank own (r.heads.size + 1) v 0 r
      condense limit next least r

end Readings

namespace Context

variable (c : Context σ)

/-- Makes something of the last trees of a head. Where paths part, there is a new head for each; the
first of them is given, if any is left. -/
def reduce (r : Readings σ) (v n : Nat) : Readings σ × Option Nat :=
  let made := c.table.reductions[n]!
  let label := Label.symbol made.symbol
  let build := Tree.make label (c.shown label) made.shownAs
  let first := r.heads.size
  let (r, groups) := r.popLength v made.length
  let halted := (r.heads.filter Head.halted).size
  let (r, _) := groups.foldl
    (fun ((r, removed) : Readings σ × Nat) (number, ways) =>
      let u := number - removed
      if headLimit + 4 + halted < u then (r.remove u, removed + 1)
      else
        let built := ways.map fun trees =>
          let (parts, extras) := splitExtras trees
          (build parts, extras)
        let (tree, extras) := built.tail.foldl (fun (best, extras) (t, more) =>
          if best.improves t then (t, more) else (best, extras))
          (built.headD (build [], []))
        let state := c.next (r.state u) label
        let tree := .node { tree.info with weight := tree.info.weight + made.weight } tree.parts
        let r := extras.foldl (fun r t => r.push u (some t) state) (r.push u (some tree) state)
        match r.mergeInto? ((List.range u).filter (· != v)) u with
        | some r => (r, removed + 1)
        | none => (r, removed)) (r, 0)
  (r, if first < r.heads.size then some first else none)

/-- What a symbol lets a state make, each kind of thing once, and whether the symbol means anything
else there; the number zero stands for every symbol. -/
def possible (state symbol : Nat) : List Nat × Bool :=
  let symbols := if symbol = 0 then (List.range c.table.symbols.width).drop 1 else [symbol]
  symbols.foldl (fun (found, other) s =>
    (c.actions state (.symbol s)).foldl (fun ((found, other) : List Nat × Bool) action =>
      match action with
      | .shift _ again => (found, other || !again)
      | .recover => (found, true)
      | .reduce n =>
        let made := c.table.reductions[n]!
        let known := found.any fun m =>
          let old := c.table.reductions[m]!
          old.symbol = made.symbol && old.length = made.length
        (if made.length = 0 || known then found else found ++ [n], other)
      | _ => (found, other)) (found, other)) ([], false)

/-- Makes all that can be made of what a head has read, whatever comes next or if a symbol comes
next; says whether the symbol means anything to one of the heads that are left. Heads from `first`
on are new ones, and `v` is the one to be looked at. -/
def makeAll (start first symbol : Nat) : Nat → Nat → Nat → Bool → Readings σ → Readings σ × Bool
  | 0, _, _, can, r => (r, can)
  | limit + 1, round, v, can, r =>
    let count := r.heads.size
    if count ≤ v then (r, can)
    else
      match r.mergeInto? ((List.range v).drop first) v with
      | some r => makeAll start first symbol limit (round + 1) v can r
      | none =>
        let (reductions, other) := c.possible (r.state v) symbol
        let (r, last) := reductions.foldl (fun ((r, _) : Readings σ × Option Nat) n =>
          c.reduce r v n) (r, none)
        let after := if v = start then count else v + 1
        let go := makeAll start first symbol limit (round + 1)
        if other then go after true r
        else
          match last with
          | some u =>
            if round < headLimit then go v can (r.replace u v)
            else go after can (if symbol = 0 then r else r.remove v)
          | none => go after can (if symbol = 0 then r else r.remove v)

/-- More rounds than it takes to make all that can be made. -/
def makeLimit : Nat := 4096

/-- Makes all that can be made of what a head has read. -/
def makeAllOf (r : Readings σ) (v symbol : Nat) : Readings σ × Bool :=
  c.makeAll v r.heads.size symbol makeLimit 0 v false r

/-- Goes back to the nearest landmark where the next token means something, unless another reading
is better than that. -/
def tryLandmarks (v : Nat) (lookahead : Tree σ) (heads since cost : Nat) :
    List Landmark → Readings σ → Readings σ × Bool
  | [], r => (r, false)
  | l :: rest, r =>
    let reach := (r.top v).reach
    let depth := if 0 < since then l.depth + 1 else l.depth
    let taken := (List.range heads).any fun j =>
      r.state j = l.state && (r.top j).reach.bytes = reach.bytes
    if l.state = 0 || l.reach.bytes = reach.bytes || taken then
      tryLandmarks v lookahead heads since cost rest r
    else
      let (r, worse) := r.better v (cost + l.depth * costs.skippedTree +
        (reach.bytes - l.reach.bytes) * costs.skippedByte +
        (reach.rows - l.reach.rows) * costs.skippedRow)
      if worse then (r, false)
      else if (c.actions l.state lookahead.info.label).isEmpty then
        tryLandmarks v lookahead heads since cost rest r
      else
        match r.returnTo v depth l.state with
        | (r, true) => (r, true)
        | (r, false) => tryLandmarks v lookahead heads since cost rest r

/-- Passes over the next token. -/
def skipToken (r : Readings σ) (v : Nat) (lookahead : Tree σ) (since : Nat) : Readings σ :=
  let anywhere := (c.actions 1 lookahead.info.label).getLast? == some .pass
  let t := if anywhere then lookahead.asExtra else lookahead
  let part := Tree.skipPart [t]
  let (r, part) :=
    if 0 < since then
      match r.popLength v 1 with
      | (r, (u, trees :: more) :: groups) =>
        let r := if more.isEmpty && groups.isEmpty then r
          else r.removeFrom (u + 1) fun _ => true
        (r.replace u v, Tree.skipPart (trees ++ [part]))
      | (r, _) => (r, part)
    else (r, part)
  let r := r.push v (some part) 0
  if t.info.laidOut then r.setHead v fun h => { h with layout := t.info.layout } else r

/-- Goes on after an error. -/
def recover (r : Readings σ) (v : Nat) (lookahead : Tree σ) : Readings σ :=
  let heads := r.heads.size
  let landmarks := ((r.head v).landmarks).getD []
  let (r, since) := r.sinceError v
  let cost := r.cost v
  let halt (r : Readings σ) := r.setHead v fun h => { h with standing := .halted }
  let (r, returned) := if lookahead.info.label = .error then (r, false)
    else c.tryLandmarks v lookahead heads since cost landmarks r
  let r := r.removeFrom heads fun h => !h.active
  if returned &&
      (headLimit < r.heads.size || (lookahead.info.laidOut && lookahead.info.changed)) then
    halt r
  else if lookahead.info.label = .symbol 0 then
    (r.push v (some (Tree.skip [])) 1).accept v lookahead
  else
    let total := lookahead.total
    let (r, worse) := r.better v (cost + costs.skippedTree + total.bytes * costs.skippedByte +
      total.rows * costs.skippedRow)
    if worse then halt r else c.skipToken r v lookahead since

/-- A new head that reads on as if a token were there that the text lacks. -/
def insertToken (r : Readings σ) (v : Nat) (lookahead : Label) : List Nat → Readings σ × Bool
  | [] => (r, false)
  | token :: rest =>
    let here := r.state v
    let state := c.next here (.symbol token)
    let makes := match c.actions state lookahead with
      | .reduce _ :: _ => true
      | _ => false
    if state = 0 || state = here || !makes then insertToken r v lookahead rest
    else
      let u := r.heads.size
      let h := r.head v
      let r := { r with heads := r.heads.push { h with landmarks := none } }
      let r := r.push u (some (Tree.lacking token (c.shown (.symbol token)))) state
      let symbol := match lookahead with
        | .symbol n => n
        | _ => 0
      match c.makeAllOf r u symbol with
      | (r, true) => (r, true)
      | (r, false) => insertToken r v lookahead rest

/-- Goes on after a head that the next token means nothing to. -/
def handleError (r : Readings σ) (v : Nat) (lookahead : Tree σ) : Readings σ :=
  let first := r.heads.size
  let (r, _) := c.makeAllOf r v 0
  let count := r.heads.size
  let tokens := (List.range c.table.symbols.width).drop 1
  let heads := v :: (List.range count).drop first
  let (r, _) := heads.foldl (fun ((r, inserted) : Readings σ × Bool) u =>
    let (r, inserted) :=
      if inserted then (r, true) else c.insertToken r u lookahead.info.label tokens
    (r.push u none 0, inserted)) (r, false)
  let r := (List.range (count - first)).foldl (fun r _ => (r.merge? v first).getD r) r
  c.recover (r.noteLandmarks v) v lookahead

/-- A head takes the next token, `lookahead`; `limit` bounds the number of things that are made on
the way. -/
def proceed (v : Nat) : Nat → Tree σ → Readings σ → Readings σ
  | 0, _, r => r
  | limit + 1, lookahead, r =>
    let actions := c.actions (r.state v) lookahead.info.label
    act limit lookahead actions none false r
where
  /-- Does what the next token does: first things first. -/
  act (limit : Nat) (lookahead : Tree σ) :
      List Action → Option Nat → Bool → Readings σ → Readings σ
    | .shift _ true :: rest, last, made, r => act limit lookahead rest last made r
    | .shift state false :: _, _, _, r => r.shift v state lookahead false
    | .pass :: _, _, _, r => r.shift v (r.state v) lookahead true
    | .accept :: _, _, _, r => r.accept v lookahead
    | .recover :: _, _, _, r => c.recover r v lookahead
    | .reduce n :: rest, last, _, r =>
      let (r, fresh) := c.reduce r v n
      act limit lookahead rest (fresh.or last) true r
    | [], some u, _, r => proceed v limit lookahead (r.replace u v)
    | [], none, true, r => r.setHead v fun h => { h with standing := .halted }
    | [], none, false, r =>
      let state := r.state v
      if lookahead.info.keyword && lookahead.info.label != .symbol word &&
          !(c.actions state (.symbol word)).isEmpty then
        let label := Label.symbol word
        proceed v limit
          (.node { lookahead.info with label, shown := c.shown label } lookahead.parts) r
      else if state = 0 then c.recover r v lookahead
      else
        let count := (r.top v).count
        r.setHead v fun h => { h with standing := .paused lookahead, base := count }

/-- Lets the first head go on that is paused if no head is active, and gives up the other paused
ones. -/
def resume : Nat → Nat → Nat → Bool → Option Nat → Readings σ → Readings σ × Option Nat
  | 0, _, _, _, least, r => (r, least)
  | limit + 1, v, count, running, least, r =>
    if count ≤ v then (r, least)
    else
      match (r.head v).standing with
      | .paused lookahead =>
        if !running && r.accepted < headLimit then
          let cost := r.cost v
          let r := r.setHead v fun h => { h with standing := .active }
          resume limit (v + 1) count true (some cost) (c.handleError r v lookahead)
        else resume limit v (count - 1) running least (r.remove v)
      | _ => resume limit (v + 1) count true least r

/-- Lets a head take tokens until it has got further than any head before. -/
def advance (v : Nat) : Nat → Nat → Readings σ → Readings σ × Nat
  | 0, reached, r => (r, reached)
  | limit + 1, reached, r =>
    if v < r.heads.size && (r.head v).active then
      let t := c.lookahead r v
      let r := c.proceed v (r.nodes.size + makeLimit) t r
      if r.heads.size ≤ v then (r, reached)
      else
        let reach := (r.top v).reach.bytes
        if reached < reach || (0 < v && reach = reached) then (r, reach)
        else advance v limit reached r
    else (r, reached)

/-- Lets every head take tokens. -/
def advanceAll (limit : Nat) : Nat → Nat → Nat → Readings σ → Readings σ × Nat
  | 0, _, reached, r => (r, reached)
  | rounds + 1, v, reached, r =>
    if r.heads.size ≤ v then (r, reached)
    else
      let (r, reached) := c.advance v limit reached r
      advanceAll limit rounds (v + 1) reached r

/-- Reads on until a reading of the whole text is better than what any head may come to, or no head
is left. -/
def readOn (limit : Nat) : Nat → Nat → Readings σ → Readings σ
  | 0, _, r => r
  | rounds + 1, reached, r =>
    let (r, reached) := c.advanceAll limit limit 0 reached r
    let left := !r.heads.isEmpty
    let (r, least) := Readings.condense limit 0 none r
    let r := r.removeFrom headLimit fun _ => true
    let (r, least) := c.resume limit 0 r.heads.size false least r
    let decided := r.finished.any fun t => match least with
      | some n => t.info.cost < n
      | none => true
    if decided || !left then r else readOn limit rounds reached r

/-- What a text is read as. -/
def read : Option (Tree σ) :=
  let limit := 64 * (c.source.size + 64)
  (c.readOn limit limit 0 (.start 1)).finished

end Context

end Anchored.Parsing
