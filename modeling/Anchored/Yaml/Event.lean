import Anchored.Yaml.Token.Stream

/-!
# The events of a text

Events are what is left of the tokens once the punctuation is understood: documents, sequences and
mappings start and end, and between them stand scalars and aliases. A missing node is an empty plain
scalar.
-/

namespace Anchored.Yaml

/-- What an event is. The names are those of an anchor and a tag. -/
inductive EventKind where
  | streamStart
  | streamEnd
  | documentStart
  | documentEnd
  | alias (name : List Char)
  | scalar (anchor tag : Option (List Char)) (text : List Char) (style : Style)
  | sequenceStart (anchor tag : Option (List Char))
  | sequenceEnd
  | mappingStart (anchor tag : Option (List Char))
  | mappingEnd
  deriving DecidableEq, Repr

/-- An event and where it starts. -/
structure Event where
  kind : EventKind
  mark : Mark
  deriving DecidableEq, Repr

/-- What is expected next. -/
inductive Expect where
  | streamStart
  /-- A document, with or without a mark in front. -/
  | implicitDocument
  | document
  | documentContent
  | documentEnd
  | blockNode
  | sequenceEntry (first : Bool)
  /-- An entry of a sequence that is indented like the key that it belongs to. -/
  | indentlessEntry
  | mappingKey (first : Bool)
  | mappingValue
  | flowEntry (first : Bool)
  /-- The key of a single pair in a flow sequence. -/
  | pairKey
  | pairValue
  | pairEnd
  | flowKey (first : Bool)
  | flowValue
  /-- The value of an entry that has none. -/
  | noFlowValue
  | nothing
  deriving DecidableEq, Repr

/-- The state of a reading of tokens. -/
structure EventReader where
  tokens : List Token
  /-- What comes instead of a token after the last. -/
  fault : Option Malformed
  expect : Expect
  /-- What is expected afterwards, innermost first. -/
  waiting : List Expect
  /-- Where the open collections started, innermost first. -/
  marks : List Mark
  /-- The starts of tags that handles stand for. -/
  handles : List (List Char × List Char)

namespace EventReader

/-- A step that yields an event. -/
abbrev Step := Except Malformed (Event × EventReader)

/-- The next token. -/
def peek (r : EventReader) : Except Malformed Token :=
  match r.tokens with
  | token :: _ => .ok token
  | [] => .error (r.fault.getD (.found .expectedStreamStart Mark.start none))

/-- The state with the next token taken. -/
def skip (r : EventReader) : EventReader :=
  { r with tokens := r.tokens.drop 1 }

/-- The state that expects what was waiting last. -/
def resume (r : EventReader) : EventReader :=
  match r.waiting with
  | expect :: waiting => { r with expect, waiting }
  | [] => { r with expect := .nothing }

/-- The state that expects something. -/
def expecting (r : EventReader) (expect : Expect) : EventReader :=
  { r with expect }

/-- The state in which something is expected after the next node. -/
def andThen (r : EventReader) (expect : Expect) : EventReader :=
  { r with waiting := expect :: r.waiting }

/-- The state with the start of a collection remembered. -/
def enter (r : EventReader) (mark : Mark) : EventReader :=
  { r with marks := mark :: r.marks }

/-- The state with the start of a collection forgotten. -/
def leave (r : EventReader) : EventReader :=
  { r with marks := r.marks.drop 1 }

/-- A problem at a token of the innermost collection. -/
def failIn (r : EventReader) (context : Context) (problem : Problem) (token : Token) :
    Except Malformed α :=
  .error (.found problem token.start (some (context, r.marks.headD Mark.start)))

/-- An empty scalar in place of a node. -/
def emptyScalar (r : EventReader) (mark : Mark) : Step :=
  .ok (⟨.scalar none none [] .plain, mark⟩, r)

/-! ## Nodes -/

/-- The anchor and the tag of a node. -/
structure Properties where
  anchor : Option (List Char)
  tag : Option (List Char × List Char)
  /-- Where the node starts. -/
  mark : Mark
  tagMark : Mark

/-- Reads the anchor and the tag in front of a node, in either order. -/
def properties (r : EventReader) : Except Malformed (Properties × EventReader) := do
  let first ← r.peek
  let none : Properties := ⟨.none, .none, first.start, first.start⟩
  match first.kind with
  | .anchor name =>
    let r := r.skip
    let second ← r.peek
    match second.kind with
    | .tag handle suffix =>
      return (⟨some name, some (handle, suffix), first.start, second.start⟩, r.skip)
    | _ => return ({ none with anchor := some name }, r)
  | .tag handle suffix =>
    let r := r.skip
    let second ← r.peek
    match second.kind with
    | .anchor name => return (⟨some name, some (handle, suffix), first.start, first.start⟩, r.skip)
    | _ => return ({ none with tag := some (handle, suffix) }, r)
  | _ => return (none, r)

/-- The tag that a handle and a suffix stand for. -/
def resolveTag (r : EventReader) (p : Properties) : Except Malformed (Option (List Char)) :=
  match p.tag with
  | none => .ok none
  | some ([], suffix) => .ok (some suffix)
  | some (handle, suffix) =>
    match r.handles.find? (·.1 == handle) with
    | some (_, expansion) => .ok (some (expansion ++ suffix))
    | none => .error (.found .undefinedTagHandle p.tagMark (some (.node, p.mark)))

/-- Reads the start of a node. -/
def node (r : EventReader) (block indentless : Bool) : Step := do
  let first ← r.peek
  match first.kind with
  | .alias name => return (⟨.alias name, first.start⟩, r.resume.skip)
  | _ =>
    let (p, r) ← r.properties
    let token ← r.peek
    let tag ← r.resolveTag p
    let start (kind : EventKind) (expect : Expect) : Step :=
      .ok (⟨kind, p.mark⟩, { r with expect })
    match token.kind with
    | .blockEntry =>
      if indentless then start (.sequenceStart p.anchor tag) .indentlessEntry
      else missing p tag token r
    | .scalar text style =>
      let tag := if tag = some ['!'] then none else tag
      return (⟨.scalar p.anchor tag text style, p.mark⟩, r.resume.skip)
    | .flowSequenceStart => start (.sequenceStart p.anchor tag) (.flowEntry true)
    | .flowMappingStart => start (.mappingStart p.anchor tag) (.flowKey true)
    | .blockSequenceStart =>
      if block then start (.sequenceStart p.anchor tag) (.sequenceEntry true)
      else missing p tag token r
    | .blockMappingStart =>
      if block then start (.mappingStart p.anchor tag) (.mappingKey true)
      else missing p tag token r
    | _ => missing p tag token r
where
  /-- A node that has at most an anchor and a tag. -/
  missing (p : Properties) (tag : Option (List Char)) (token : Token) (r : EventReader) : Step :=
    if p.anchor.isSome ∨ tag.isSome then
      .ok (⟨.scalar p.anchor tag [] .plain, p.mark⟩, r.resume)
    else
      .error (.found .expectedNode token.start
        (some (if block then .blockNode else .flowNode, p.mark)))

/-- Reads a node, after which something is expected, unless a token of `stops` comes instead of
it. -/
def nodeUnless (r : EventReader) (stops : List TokenKind) (block indentless : Bool)
    (expect : Expect) (mark : Mark) : Step := do
  let token ← r.peek
  if stops.contains token.kind then (r.expecting expect).emptyScalar mark
  else (r.andThen expect).node block indentless

/-! ## Documents -/

/-- The handles that every document knows. -/
def defaultHandles : List (List Char × List Char) :=
  [(['!'], ['!']), (['!', '!'], "tag:yaml.org,2002:".toList)]

/-- Reads the directives in front of a document. -/
def directives (r : EventReader) (versionSeen : Bool) (fuel : Nat) :
    Except Malformed EventReader :=
  match fuel with
  | 0 => .ok r
  | fuel + 1 => do
    let token ← r.peek
    match token.kind with
    | .versionDirective major minor =>
      if versionSeen then .error (.found .duplicateVersion token.start none)
      else if major ≠ 1 ∨ (minor ≠ 1 ∧ minor ≠ 2) then
        .error (.found .incompatibleVersion token.start none)
      else directives r.skip true fuel
    | .tagDirective handle expansion =>
      if r.handles.any (·.1 == handle) then .error (.found .duplicateTagDirective token.start none)
      else directives { r.skip with handles := r.handles ++ [(handle, expansion)] } versionSeen fuel
    | _ =>
      let more := defaultHandles.filter fun (handle, _) => ! r.handles.any (·.1 == handle)
      return { r with handles := r.handles ++ more }

/-- The state past the marks that end documents. -/
def skipEnds (r : EventReader) : EventReader :=
  { r with tokens := r.tokens.dropWhile (·.kind == .documentEnd) }

/-- Reads the start of a document, or the end of the stream. -/
def documentStart (r : EventReader) (implicit : Bool) : Step := do
  let r := if implicit then r else r.skipEnds
  let token ← r.peek
  let explicit : Step := do
    let r ← r.directives false (r.tokens.length + 1)
    let mark ← r.peek
    if mark.kind = .documentStart then
      return (⟨.documentStart, token.start⟩,
        ({ r with expect := .documentContent }.andThen .documentEnd).skip)
    else .error (.found .expectedDocumentStart mark.start none)
  match token.kind with
  | .streamEnd => return (⟨.streamEnd, token.start⟩, { r.skip with expect := .nothing })
  | .versionDirective .. => explicit
  | .tagDirective .. => explicit
  | .documentStart => explicit
  | _ =>
    if implicit then
      let r ← r.directives false 1
      return (⟨.documentStart, token.start⟩,
        { r with expect := .blockNode }.andThen .documentEnd)
    else explicit

/-- Reads the node of a document that has a mark in front. -/
def documentContent (r : EventReader) : Step := do
  let token ← r.peek
  match token.kind with
  | .versionDirective .. => r.resume.emptyScalar token.start
  | .tagDirective .. => r.resume.emptyScalar token.start
  | .documentStart => r.resume.emptyScalar token.start
  | .documentEnd => r.resume.emptyScalar token.start
  | .streamEnd => r.resume.emptyScalar token.start
  | _ => r.node true false

/-- Reads the end of a document. -/
def documentEnd (r : EventReader) : Step := do
  let token ← r.peek
  let r := if token.kind = .documentEnd then r.skip else r
  return (⟨.documentEnd, token.start⟩, { r with expect := .document, handles := [] })

/-! ## Collections -/

/-- The state with the token that opened a collection taken. -/
def opened (r : EventReader) (first : Bool) : Except Malformed EventReader := do
  if first then
    let token ← r.peek
    return (r.enter token.start).skip
  else return r

/-- The end of a collection. -/
def closed (r : EventReader) (kind : EventKind) (token : Token) : Step :=
  .ok (⟨kind, token.start⟩, r.resume.leave.skip)

/-- Reads an entry of a block sequence, or its end. -/
def sequenceEntry (r : EventReader) (first : Bool) : Step := do
  let r ← r.opened first
  let token ← r.peek
  match token.kind with
  | .blockEntry =>
    r.skip.nodeUnless [.blockEntry, .blockEnd] true false (.sequenceEntry false) token.stop
  | .blockEnd => r.closed .sequenceEnd token
  | _ => r.failIn .blockSequence .expectedDash token

/-- Reads an entry of a sequence that is not indented, or its end. -/
def indentlessEntry (r : EventReader) : Step := do
  let token ← r.peek
  match token.kind with
  | .blockEntry =>
    r.skip.nodeUnless [.blockEntry, .key, .value, .blockEnd] true false .indentlessEntry token.stop
  | _ => return (⟨.sequenceEnd, token.start⟩, r.resume)

/-- Reads a key of a block mapping, or its end. -/
def mappingKey (r : EventReader) (first : Bool) : Step := do
  let r ← r.opened first
  let token ← r.peek
  match token.kind with
  | .key => r.skip.nodeUnless [.key, .value, .blockEnd] true true .mappingValue token.stop
  | .blockEnd => r.closed .mappingEnd token
  | _ => r.failIn .blockMapping .expectedKey token

/-- Reads a value of a block mapping. -/
def mappingValue (r : EventReader) : Step := do
  let token ← r.peek
  match token.kind with
  | .value => r.skip.nodeUnless [.key, .value, .blockEnd] true true (.mappingKey false) token.stop
  | _ => (r.expecting (.mappingKey false)).emptyScalar token.start

/-- The state past the comma between two entries of a flow collection. -/
def separated (r : EventReader) (first : Bool) (context : Context) (problem : Problem) :
    Except Malformed EventReader := do
  if first then return r
  else
    let token ← r.peek
    if token.kind = .flowEntry then return r.skip else r.failIn context problem token

/-- Reads an entry of a flow sequence, or its end. -/
def flowEntry (r : EventReader) (first : Bool) : Step := do
  let r ← r.opened first
  let token ← r.peek
  if token.kind = .flowSequenceEnd then r.closed .sequenceEnd token
  else
    let r ← r.separated first .flowSequence .expectedListEnd
    let token ← r.peek
    match token.kind with
    | .key => return (⟨.mappingStart none none, token.start⟩, { r.skip with expect := .pairKey })
    | .flowSequenceEnd => r.closed .sequenceEnd token
    | _ => (r.andThen (.flowEntry false)).node false false

/-- Reads the key of a single pair. -/
def pairKey (r : EventReader) : Step := do
  let token ← r.peek
  if [TokenKind.value, .flowEntry, .flowSequenceEnd].contains token.kind then
    (r.skip.expecting .pairValue).emptyScalar token.stop
  else (r.andThen .pairValue).node false false

/-- Reads the value of a single pair. -/
def pairValue (r : EventReader) : Step := do
  let token ← r.peek
  if token.kind = .value then
    let next ← r.skip.peek
    r.skip.nodeUnless [.flowEntry, .flowSequenceEnd] false false .pairEnd next.start
  else (r.expecting .pairEnd).emptyScalar token.start

/-- The end of a single pair. -/
def pairEnd (r : EventReader) : Step := do
  let token ← r.peek
  return (⟨.mappingEnd, token.start⟩, { r with expect := .flowEntry false })

/-- Reads a key of a flow mapping, or its end. -/
def flowKey (r : EventReader) (first : Bool) : Step := do
  let r ← r.opened first
  let token ← r.peek
  if token.kind = .flowMappingEnd then r.closed .mappingEnd token
  else
    let r ← r.separated first .flowMapping .expectedMapEnd
    let token ← r.peek
    match token.kind with
    | .key =>
      let next ← r.skip.peek
      r.skip.nodeUnless [.value, .flowEntry, .flowMappingEnd] false false .flowValue next.start
    | .flowMappingEnd => r.closed .mappingEnd token
    | _ => (r.andThen .noFlowValue).node false false

/-- Reads a value of a flow mapping. -/
def flowValue (r : EventReader) : Step := do
  let token ← r.peek
  if token.kind = .value then
    let next ← r.skip.peek
    r.skip.nodeUnless [.flowEntry, .flowMappingEnd] false false (.flowKey false) next.start
  else (r.expecting (.flowKey false)).emptyScalar token.start

/-- Reads what is expected next. -/
def next (r : EventReader) : Step :=
  match r.expect with
  | .streamStart => do
    let token ← r.peek
    if token.kind = .streamStart then
      return (⟨.streamStart, token.start⟩, { r.skip with expect := .implicitDocument })
    else .error (.found .expectedStreamStart token.start none)
  | .implicitDocument => r.documentStart true
  | .document => r.documentStart false
  | .documentContent => r.documentContent
  | .documentEnd => r.documentEnd
  | .blockNode => r.node true false
  | .sequenceEntry first => r.sequenceEntry first
  | .indentlessEntry => r.indentlessEntry
  | .mappingKey first => r.mappingKey first
  | .mappingValue => r.mappingValue
  | .flowEntry first => r.flowEntry first
  | .pairKey => r.pairKey
  | .pairValue => r.pairValue
  | .pairEnd => r.pairEnd
  | .flowKey first => r.flowKey first
  | .flowValue => r.flowValue
  | .noFlowValue => do
    let token ← r.peek
    (r.expecting (.flowKey false)).emptyScalar token.start
  | .nothing => .ok (⟨.streamEnd, Mark.start⟩, r)

/-- Reads events up to the end of the stream or a fault. -/
def run (fuel : Nat) (r : EventReader) : List Event × Option Malformed :=
  match fuel with
  | 0 => ([], none)
  | fuel + 1 =>
    match r.next with
    | .error fault => ([], some fault)
    | .ok (event, r) =>
      if event.kind = .streamEnd then ([event], none)
      else
        let (events, fault) := run fuel r
        (event :: events, fault)

end EventReader

/-- The events of a text, and the fault that cuts them short. -/
def Event.read (text : List Char) : List Event × Option Malformed :=
  let (tokens, fault) := Token.scan text
  EventReader.run (4 * tokens.length + 16) {
    tokens, fault, expect := .streamStart, waiting := [], marks := [], handles := [] }

end Anchored.Yaml
