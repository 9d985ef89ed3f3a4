import Anchored.Parsing.Tree

/-!
# Readings side by side

A reading is a path of trees from the beginning of a text. Readings that differ only in their past
share what comes after it: the nodes of all paths are kept together, and each node has links to the
nodes before it. A head is where a reading has got to.
-/

namespace Anchored.Parsing

variable {σ : Type}

/-- The way from a node to one before it; there is no tree where an error was met. -/
structure Link (σ : Type) where
  node : Nat
  tree : Option (Tree σ)
  deriving Inhabited

/-- A place that some readings have in common. -/
structure Node (σ : Type) where
  /-- The state of the table. -/
  state : Nat
  /-- How far the text has been read. -/
  reach : Extent
  cost : Nat
  /-- The number of nodes of the trees on the way here. -/
  count : Nat
  weight : Int
  links : Array (Link σ)
  deriving Inhabited

/-- How a reading stands. -/
inductive Standing (σ : Type) where
  | active
  /-- No token is wanted but another one came. -/
  | paused (lookahead : Tree σ)
  | halted
  deriving Inhabited

/-- A place that a reading may return to after an error. -/
structure Landmark where
  /-- The number of trees since. -/
  depth : Nat
  state : Nat
  reach : Extent
  deriving DecidableEq, Repr, Inhabited

/-- Where a reading has got to. -/
structure Head (σ : Type) where
  node : Nat
  /-- The number of nodes at the last error. -/
  base : Nat
  /-- The layout after the last token that it shows. -/
  layout : Option σ
  standing : Standing σ
  /-- The places that the reading may return to, once they are known. -/
  landmarks : Option (List Landmark)
  deriving Inhabited

/-- Readings of a text. -/
structure Readings (σ : Type) where
  nodes : Array (Node σ)
  heads : Array (Head σ)
  /-- The best reading of the whole text so far. -/
  finished : Option (Tree σ)
  /-- How many readings of the whole text there were. -/
  accepted : Nat

/-- The most readings that are kept. -/
def headLimit : Nat := 6

/-- The most links of a node. -/
def linkLimit : Nat := 8

/-- The most paths that are followed back at once. -/
def pathLimit : Nat := 64

/-- The greatest depth of a landmark. -/
def landmarkDepth : Nat := 16

/-- The head is active. -/
def Head.active (h : Head σ) : Bool :=
  h.standing matches .active

/-- The head is halted. -/
def Head.halted (h : Head σ) : Bool :=
  h.standing matches .halted

/-- What a text is read by before anything of it is read. -/
def Readings.start (state : Nat) : Readings σ where
  nodes := #[⟨state, .zero, 0, 0, 0, #[]⟩]
  heads := #[⟨0, 0, none, .active, none⟩]
  finished := none
  accepted := 0

/-- A node that a tree leads to from another one. -/
def Node.after (n : Node σ) (number : Nat) (tree : Option (Tree σ)) (state : Nat) : Node σ :=
  match tree with
  | none => { n with state, links := #[⟨number, none⟩] }
  | some t =>
    { state
      reach := n.reach + t.total
      cost := n.cost + t.info.cost
      count := n.count + t.count
      weight := n.weight + t.info.weight
      links := #[⟨number, t⟩] }

/-- Two trees need not be told apart. -/
def alike [BEq σ] : Option (Tree σ) → Option (Tree σ) → Bool
  | none, none => true
  | some s, some t =>
    let (i, j) := (s.info, t.info)
    i.label = j.label && ((0 < i.cost && 0 < j.cost) ||
      (i.gap.bytes = j.gap.bytes && i.size.bytes = j.size.bytes &&
        s.parts.length = t.parts.length && i.extra = j.extra && i.layout == j.layout))
  | _, _ => false

/-- The weight of a link with all before it. -/
def Link.weight (nodes : Array (Node σ)) (l : Link σ) : Int :=
  nodes[l.node]!.weight + (l.tree.map fun t => t.info.weight).getD 0

/-- Nodes with one more way to one of them. A way that need not be told apart from one that is there
adds only what it has before it; `limit` bounds how far back that goes. -/
def addLink [BEq σ] : Nat → Nat → Link σ → Array (Node σ) → Array (Node σ)
  | 0, _, _, nodes => nodes
  | limit + 1, n, l, nodes =>
    if l.node = n then nodes
    else
      let known := nodes[n]!.links
      let old := known.findIdx? fun k =>
        let (a, b) := (nodes[k.node]!, nodes[l.node]!)
        alike k.tree l.tree && (k.node = l.node ||
          (a.state = b.state && a.reach.bytes = b.reach.bytes && a.cost = b.cost))
      match old with
      | some i =>
        let k := known[i]!
        if k.node = l.node then
          match k.tree, l.tree with
          | some s, some t =>
            if s.info.weight < t.info.weight then
              let weight := l.weight nodes
              nodes.modify n fun a => { a with links := a.links.set! i l, weight }
            else nodes
          | _, _ => nodes
        else
          let before := nodes[l.node]!.links
          let nodes := before.foldl (fun nodes m => addLink limit k.node m nodes) nodes
          let weight := l.weight nodes
          nodes.modify n fun a => { a with weight := max a.weight weight }
      | none =>
        if known.size = linkLimit then nodes
        else
          let count := nodes[l.node]!.count + (l.tree.map Tree.count).getD 0
          let weight := l.weight nodes
          nodes.modify n fun a =>
            { a with
              links := a.links.push l
              count := max a.count count
              weight := max a.weight weight }

/-- A way back from a head. -/
structure Path (σ : Type) where
  node : Nat
  /-- The trees on the way, in the order of the text. -/
  trees : List (Tree σ)
  /-- How many of them the grammar has a place for, errors included. -/
  length : Nat
  deriving Inhabited

/-- The path one link further back. -/
def Path.follow (p : Path σ) (l : Link σ) : Path σ :=
  match l.tree with
  | none => ⟨l.node, p.trees, p.length + 1⟩
  | some t => ⟨l.node, t :: p.trees, if t.info.extra then p.length else p.length + 1⟩

/-- What to do with a path. -/
structure Verdict where
  /-- The path is one of those that are looked for. -/
  take : Bool
  /-- The path is followed no further. -/
  stop : Bool

/-- Paths back from a head while they are being followed, all of one number of links. -/
structure Walk (α σ : Type) where
  known : α
  /-- The paths that have been followed one link further. -/
  kept : Array (Path σ)
  /-- The paths that have parted from them. -/
  parted : Array (Path σ)
  taken : Array (Path σ)
  /-- The number of paths. -/
  alive : Nat

/-- One path of a walk, one link further. -/
def Walk.step {α : Type} (nodes : Array (Node σ)) (judge : α → Path σ → α × Verdict)
    (w : Walk α σ) (p : Path σ) : Walk α σ :=
  let (known, verdict) := judge w.known p
  let links := nodes[p.node]!.links
  let taken := if verdict.take then w.taken.push p else w.taken
  if verdict.stop || links.isEmpty then { w with known, taken, alive := w.alive - 1 }
  else
    let (parted, alive) := (links.toList.drop 1).foldl
      (fun ((parted, alive) : Array (Path σ) × Nat) l =>
        if pathLimit ≤ alive then (parted, alive) else (parted.push (p.follow l), alive + 1))
      (w.parted, w.alive)
    { known, taken, parted, alive, kept := w.kept.push (p.follow links[0]!) }

/-- Follows paths back, and gives the ones that were looked for; `limit` bounds how far. -/
def walk {α : Type} (nodes : Array (Node σ)) (judge : α → Path σ → α × Verdict) :
    Nat → Walk α σ → Walk α σ
  | 0, w => w
  | limit + 1, w =>
    let paths := w.kept ++ w.parted
    if paths.isEmpty then w
    else
      walk nodes judge limit
        (paths.foldl (Walk.step nodes judge) { w with kept := #[], parted := #[] })

namespace Readings

variable (r : Readings σ)

/-- The head with a number. -/
def head (v : Nat) : Head σ :=
  r.heads[v]!

/-- The node that a head is at. -/
def top (v : Nat) : Node σ :=
  r.nodes[(r.head v).node]!

/-- The state that a head is in. -/
def state (v : Nat) : Nat :=
  (r.top v).state

/-- The readings with a head changed. -/
def setHead (v : Nat) (f : Head σ → Head σ) : Readings σ :=
  { r with heads := r.heads.modify v f }

/-- The readings without a head. -/
def remove (v : Nat) : Readings σ :=
  { r with heads := r.heads.eraseIdxIfInBounds v }

/-- A head goes on with a tree, or with an error. -/
def push (v : Nat) (tree : Option (Tree σ)) (state : Nat) : Readings σ :=
  let number := (r.head v).node
  let node := (r.top v).after number tree state
  let count := node.count
  let ⟨nodes, heads, finished, accepted⟩ := r
  let fresh := nodes.size
  ⟨nodes.push node, heads.modify v fun h =>
    { h with node := fresh, base := if tree.isNone then count else h.base }, finished, accepted⟩

/-- All that a head has cost so far. -/
def cost (v : Nat) : Nat :=
  let h := r.head v
  let n := r.top v
  let open_ : Bool := match h.standing with
    | .paused _ => true
    | _ => n.state = 0 && (n.links[0]?.any fun l => l.tree.isNone)
  n.cost + if open_ then costs.recovery else 0

/-- The readings once the nodes since the last error have been counted, and their number. -/
def sinceError (v : Nat) : Readings σ × Nat :=
  let count := (r.top v).count
  let base := min (r.head v).base count
  (r.setHead v fun h => { h with base }, count - base)

/-- Two heads could be one. -/
def canMerge [BEq σ] (a b : Nat) : Bool :=
  let (g, h) := (r.head a, r.head b)
  let (m, n) := (r.top a, r.top b)
  g.active && h.active && m.state = n.state && m.reach.bytes = n.reach.bytes && m.cost = n.cost &&
    g.layout == h.layout

/-- The readings with a head made part of another one, if that can be. -/
def merge? [BEq σ] (a b : Nat) : Option (Readings σ) :=
  if r.canMerge a b then
    let target := (r.head a).node
    let links := (r.top b).links
    let nodes := links.foldl (fun nodes l => addLink nodes.size target l nodes) r.nodes
    let n := nodes[target]!
    some { r with
      nodes
      heads := (r.heads.modify a fun h =>
        if n.state = 0 then { h with base := n.count } else h).eraseIdxIfInBounds b }
  else none

/-- A later head takes the place of another one. -/
def replace (later v : Nat) : Readings σ :=
  if later = v then r
  else
    let old := (r.head v).landmarks
    let new := r.head later
    { r with
      heads := (r.heads.set! v { new with landmarks := new.landmarks.or old }).eraseIdxIfInBounds
        later }

/-- Follows the paths back from a head. -/
def walkBack {α : Type} (v : Nat) (judge : α → Path σ → α × Verdict) (known : α) : Walk α σ :=
  walk r.nodes judge (r.nodes.size + 1) ⟨known, #[⟨(r.head v).node, [], 0⟩], #[], #[], 1⟩

/-- New heads for the paths back from a head that are looked for, one for every node that they lead
to. With each new head come the ways from there to the old one. -/
def pop {α : Type} (v : Nat) (judge : α → Path σ → α × Verdict) (known : α) :
    Readings σ × List (Nat × List (List (Tree σ))) :=
  let taken := (r.walkBack v judge known).taken
  let groups := taken.foldl (fun (groups : Array (Nat × List (List (Tree σ)))) p =>
    match groups.findIdx? fun g => g.1 == p.node with
    | some i => groups.modify i fun g => (g.1, g.2 ++ [p.trees])
    | none => groups.push (p.node, [p.trees])) #[]
  let h := r.head v
  let first := r.heads.size
  ({ r with heads := groups.foldl (fun heads g =>
      heads.push ⟨g.1, h.base, h.layout, .active, none⟩) r.heads },
    groups.toList.mapIdx fun i g => (first + i, g.2))

/-- New heads where the last so many trees have not been read. -/
def popLength (v n : Nat) : Readings σ × List (Nat × List (List (Tree σ))) :=
  r.pop v (fun (_ : Unit) p => ((), if p.length = n then ⟨true, true⟩ else ⟨false, false⟩)) ()

/-- New heads at the beginning of the text. -/
def popAll (v : Nat) : Readings σ × List (Nat × List (List (Tree σ))) :=
  r.pop v (fun (_ : Unit) p => ((), ⟨r.nodes[p.node]!.links.isEmpty, false⟩)) ()

/-- Takes what was skipped last off a head, if anything was. -/
def popSkipped (v : Nat) : Readings σ × List (Tree σ) :=
  if (r.top v).links.any fun l => l.tree.any fun t => t.info.label = .error then
    let judge (found : Bool) (p : Path σ) : Bool × Verdict :=
      match p.trees with
      | [] => (found, ⟨false, false⟩)
      | t :: _ =>
        if !found && t.info.label = .error then (true, ⟨true, true⟩) else (found, ⟨false, true⟩)
    match r.pop v judge false with
    | (r, (n, trees :: _) :: _) => (r.replace n v, trees)
    | (r, _) => (r, [])
  else (r, [])

/-- Notes the places that a head may return to. -/
def noteLandmarks (v : Nat) : Readings σ :=
  let judge (found : Array Landmark) (p : Path σ) : Array Landmark × Verdict :=
    let n := r.nodes[p.node]!
    if landmarkDepth < p.length then (found, ⟨false, true⟩)
    else if (found.toList.reverse.takeWhile fun l => p.length ≤ l.depth).any fun l =>
        l.depth = p.length && l.state = n.state then
      (found, ⟨false, false⟩)
    else (found.push ⟨p.length, n.state, n.reach⟩, ⟨false, false⟩)
  let found := (r.walkBack v judge #[]).known
  r.setHead v fun h => { h with landmarks := some found.toList }

/-- The text has been read on since the last error. -/
def advanced (v : Nat) : Bool :=
  let base := (r.head v).base
  let n := r.top v
  n.cost = 0 || go base r.nodes.size n
where
  /-- Goes back while nodes are empty. -/
  go (base : Nat) : Nat → Node σ → Bool
    | 0, _ => false
    | limit + 1, n =>
      match (n.links[0]?.bind Link.tree) with
      | none => false
      | some t =>
        0 < t.total.bytes || (base < n.count && t.info.cost = 0 &&
          go base limit (r.nodes[n.links[0]!.node]!))

end Readings

end Anchored.Parsing
