import Anchored.Text.Quoted
import Anchored.Yaml.Event
import Anchored.Yaml.Scalar

/-!
# The nodes of a text

Every document of a text is read into one node. An alias stands for a copy of the node with its
anchor; a mapping must not have two equal keys; nesting and the copying of nodes are limited. Of two
faults the one further up is reported.
-/

namespace Anchored.Yaml

/-- A node. -/
inductive Node where
  | null
  | bool (b : Bool)
  | number (n : Number)
  | text (s : List Char)
  | sequence (items : List Node)
  | mapping (entries : List (Node × Node))
  | tagged (tag : List Char) (node : Node)

namespace Node

mutual

/-- Equal nodes. The order of a mapping's entries does not matter, nor does an exclamation mark in
front of a tag. -/
def same : Node → Node → Bool
  | .null, .null => true
  | .bool a, .bool b => a == b
  | .number a, .number b => a.same b
  | .text a, .text b => a == b
  | .sequence as, .sequence bs => sameItems as bs
  | .mapping as, .mapping bs => as.length == bs.length && sameEntries as bs
  | .tagged t a, .tagged u b => bareName t == bareName u && same a b
  | _, _ => false

/-- Equal nodes, one by one. -/
def sameItems : List Node → List Node → Bool
  | [], [] => true
  | a :: as, b :: bs => same a b && sameItems as bs
  | _, _ => false

/-- Every entry of the first mapping is one of the second. -/
def sameEntries : List (Node × Node) → List (Node × Node) → Bool
  | [], _ => true
  | (k, v) :: as, bs => bs.any (fun (k', v') => same k k' && same v v') && sameEntries as bs

end

/-- What a scalar stands for. -/
def ofPlain? : Plain → Except Int Node
  | .null => .ok .null
  | .bool b => .ok (.bool b)
  | .number n => .ok (.number n)
  | .text s => .ok (.text s)
  | .wide n => .error n

end Node

/-- The way from the root of a document to a node. -/
inductive Path where
  | root
  | item (parent : Path) (index : Nat)
  | entry (parent : Path) (key : List Char)
  /-- The entry of a key that is no scalar. -/
  | unnamed (parent : Path)
  deriving DecidableEq, Repr

namespace Path

/-- The words for a path. -/
def message : Path → String
  | .root => "."
  | .item parent index => parent.message ++ "[" ++ toString index ++ "]"
  | .entry parent key => (if parent = .root then "" else parent.message ++ ".") ++ String.ofList key
  | .unnamed parent => (if parent = .root then "" else parent.message ++ ".") ++ "?"

end Path

/-- What is wrong with a node. -/
inductive Fault where
  /-- The scalar is not what its tag asks for. -/
  | wrongScalar (text : List Char) (expected : String)
  | wideInteger (n : Int)
  | duplicateKey (key : Node)

/-- The words for a fault. -/
def Fault.message : Fault → String
  | .wrongScalar text expected =>
    "invalid value: string " ++ Text.quoted (String.ofList text) ++ ", expected " ++ expected
  | .wideInteger n =>
    "invalid type: integer `" ++ toString n ++ "` as " ++ (if n < 0 then "i128" else "u128") ++
      ", expected any YAML value"
  | .duplicateKey key => "duplicate entry " ++
    match key with
    | .null => "with null key"
    | .bool b => "with key `" ++ toString b ++ "`"
    | .number n => "with key " ++ n.message
    | .text s => "with key " ++ Text.quoted (String.ofList s)
    | _ => "in YAML map"

/-- Why a text has no nodes. -/
inductive Error where
  | malformed (fault : Malformed)
  | endOfStream
  | unknownAnchor (mark : Mark)
  | tooDeep (mark : Mark)
  | tooManyCopies
  | invalid (fault : Fault) (path : Path) (mark : Mark)

/-- The text of an error. -/
def Error.message : Error → String
  | .malformed fault => fault.message
  | .endOfStream => "EOF while parsing a value"
  | .unknownAnchor mark => "unknown anchor" ++ mark.suffix
  | .tooDeep mark => "recursion limit exceeded" ++ mark.suffix
  | .tooManyCopies => "repetition limit exceeded"
  | .invalid fault path mark =>
    (if path = .root then "" else path.message ++ ": ") ++ fault.message ++ mark.suffix

/-! ## Documents -/

/-- What is left of an event once anchors are resolved. -/
inductive Part where
  /-- A copy of the node that starts at a place. -/
  | copy (id : Nat)
  | scalar (tag : Option (List Char)) (text : List Char) (style : Style)
  | sequenceStart (tag : Option (List Char))
  | sequenceEnd
  | mappingStart (tag : Option (List Char))
  | mappingEnd
  /-- The text has no document at all. -/
  | void
  deriving DecidableEq, Repr

/-- The events of one document. -/
structure Document where
  parts : Array (Part × Mark)
  /-- What comes after the last part. -/
  error : Option Error
  /-- The names of the anchors, with the number that each has now. -/
  names : List (List Char × Nat)
  /-- Where the nodes of the numbers start. -/
  starts : List (Nat × Nat)

namespace Document

/-- A document of which nothing is read. -/
def empty : Document :=
  ⟨#[], none, [], []⟩

/-- The document with a part added. An anchor takes as its number how many names there are. -/
def add (d : Document) (part : Part) (mark : Mark) (anchor : Option (List Char)) : Document :=
  match anchor with
  | none => { d with parts := d.parts.push (part, mark) }
  | some name =>
    let id := d.names.length
    { d with
      parts := d.parts.push (part, mark)
      names := (name, id) :: d.names.filter (·.1 != name)
      starts := (id, d.parts.size) :: d.starts.filter (·.1 != id) }

/-- Divides events into documents. `first` tells that no document has ended yet. -/
def collect (fault : Option Malformed) (first : Bool) (d : Document) : List Event → List Document
  | [] =>
    match fault with
    | some fault => [{ d with error := some (.malformed fault) }]
    | none => []
  | event :: events =>
    match event.kind with
    | .streamStart => collect fault first d events
    | .documentStart => collect fault first d events
    | .streamEnd =>
      if first then [if d.parts.isEmpty then d.add .void event.mark none else d] else []
    | .documentEnd => d :: collect fault false empty events
    | .alias name =>
      match d.names.find? (·.1 == name) with
      | some (_, id) => collect fault first (d.add (.copy id) event.mark none) events
      | none => [{ d with error := some (.unknownAnchor event.mark) }]
    | .scalar anchor tag text style =>
      collect fault first (d.add (.scalar tag text style) event.mark anchor) events
    | .sequenceStart anchor tag =>
      collect fault first (d.add (.sequenceStart tag) event.mark anchor) events
    | .sequenceEnd => collect fault first (d.add .sequenceEnd event.mark none) events
    | .mappingStart anchor tag =>
      collect fault first (d.add (.mappingStart tag) event.mark anchor) events
    | .mappingEnd => collect fault first (d.add .mappingEnd event.mark none) events

/-- The documents of a text. -/
def ofText (text : List Char) : List Document :=
  let (events, fault) := Event.read text
  collect fault true empty events

/-! ## Nodes of a document -/

/-- Where a reading of a document stands: the number of the next part, and how often a node was
copied. -/
structure Place where
  part : Nat
  copies : Nat
  deriving DecidableEq, Repr

/-- The place after the next part. -/
def Place.next (p : Place) : Place :=
  { p with part := p.part + 1 }

/-- The next part. -/
def part (d : Document) (p : Place) : Except Error (Part × Mark) :=
  match d.parts[p.part]?, d.error with
  | some part, _ => .ok part
  | none, some error => .error error
  | none, none => .error .endOfStream

/-- The levels of nesting that are read. -/
def depthLimit : Nat :=
  128

/-- How often the nodes of a document of so many parts may be copied. -/
def copyLimit (parts : Nat) : Nat :=
  100 * parts

mutual

/-- Reads a node, with `depth` levels of nesting left. `tagRead` tells that its own tag was already
read. -/
def node (d : Document) (fuel depth : Nat) (path : Path) (tagRead : Bool) (p : Place) :
    Except Error (Node × Place) :=
  match fuel with
  | 0 => .error .endOfStream
  | fuel + 1 => do
    let (part, mark) ← d.part p
    let own (tag : Option (List Char)) : Option (List Char) := if tagRead then none else ownTag? tag
    match part with
    | .copy id =>
      let copies := p.copies + 1
      if copyLimit d.parts.size < copies then .error .tooManyCopies
      else
        let start := ((d.starts.find? (·.1 == id)).map (·.2)).getD d.parts.size
        let (n, after) ← node d fuel depth path false ⟨start, copies⟩
        return (n, ⟨p.part + 1, after.copies⟩)
    | .scalar tag text style =>
      match own tag with
      | some name =>
        let (n, p) ← node d fuel depth path true p
        return (.tagged name n, p)
      | none =>
        match resolve tag tagRead text style with
        | .error expected => .error (.invalid (.wrongScalar text expected) path mark)
        | .ok plain =>
          match Node.ofPlain? plain with
          | .error n => .error (.invalid (.wideInteger n) path mark)
          | .ok n => return (n, p.next)
    | .sequenceStart tag =>
      match own tag with
      | some name =>
        let (n, p) ← node d fuel depth path true p
        return (.tagged name n, p)
      | none =>
        if depth = 0 then .error (.tooDeep mark)
        else
          let (items, p) ← sequence d fuel (depth - 1) path 0 p.next
          return (.sequence items, p)
    | .mappingStart tag =>
      match own tag with
      | some name =>
        let (n, p) ← node d fuel depth path true p
        return (.tagged name n, p)
      | none =>
        if depth = 0 then .error (.tooDeep mark)
        else
          let (entries, p) ← mapping d fuel (depth - 1) path tagRead mark [] p.next
          return (.mapping entries, p)
    | _ => return (.null, p.next)

/-- Reads the items of a sequence and its end. -/
def sequence (d : Document) (fuel depth : Nat) (path : Path) (index : Nat) (p : Place) :
    Except Error (List Node × Place) :=
  match fuel with
  | 0 => .error .endOfStream
  | fuel + 1 => do
    let (part, _) ← d.part p
    if part = .sequenceEnd then return ([], p.next)
    else
      let (item, p) ← node d fuel depth (.item path index) false p
      let (items, p) ← sequence d fuel depth path (index + 1) p
      return (item :: items, p)

/-- Reads the entries of a mapping and its end; `seen` holds those already read. Where the tag of
the mapping was read, its keys are read as if theirs were, too. -/
def mapping (d : Document) (fuel depth : Nat) (path : Path) (tagRead : Bool) (mark : Mark)
    (seen : List (Node × Node)) (p : Place) : Except Error (List (Node × Node) × Place) :=
  match fuel with
  | 0 => .error .endOfStream
  | fuel + 1 => do
    let (part, _) ← d.part p
    if part = .mappingEnd then return (seen, p.next)
    else
      let (key, p) ← node d fuel depth path tagRead p
      match seen.find? fun (other, _) => key.same other with
      | some (other, _) => .error (.invalid (.duplicateKey other) path mark)
      | none =>
        let inner := match part with
          | .scalar _ text _ => Path.entry path text
          | _ => .unnamed path
        let (value, p) ← node d fuel depth inner false p
        mapping d fuel depth path tagRead mark (seen ++ [(key, value)]) p

end

/-- Reads the node of a document. -/
def read (d : Document) : Except Error Node := do
  let (n, _) ← d.node ((2 * depthLimit + 4) * (d.parts.size + 4)) depthLimit .root false ⟨0, 0⟩
  match d.error with
  | none => return n
  | some error => .error error

end Document

/-- Reads the documents of a text, one after another. -/
def read (text : String) : Except Error (List Node) :=
  (Document.ofText text.toList).mapM Document.read

end Anchored.Yaml
