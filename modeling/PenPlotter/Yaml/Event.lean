import PenPlotter.Yaml.Cursor
/-!
# Events

The structure of a document as a sequence of events: scalars and aliases, and the starts and ends of
collections and documents. What may come next is a state; the states to come back to when a node is
complete are on a stack.
-/
namespace PenPlotter.Yaml
open Text

structure Properties where
  anchor : Option (List Char) := none
  tag : Option (List Char) := none

inductive Event where
  | documentStart
  | documentEnd
  | streamEnd
  | alias (name : List Char)
  /-- A plain scalar may stand for something other than its text. -/
  | scalar (properties : Properties) (plain : Bool) (text : List Code) (mark : Mark)
  | sequenceStart (properties : Properties) (mark : Mark)
  | sequenceEnd
  | mappingStart (properties : Properties) (mark : Mark)
  | mappingEnd

inductive Expected where
  | firstDocument
  | document
  | documentContent
  | documentEnd
  | node
  | blockEntry
  | indentlessEntry
  | blockKey
  | blockValue
  | flowEntry (first : Bool)
  | pairKey
  | pairValue
  | pairEnd
  | flowKey (first : Bool)
  | flowValue
  | flowEmptyValue

structure EventReader where
  tokens : List Token
  /-- Why there are no further tokens. -/
  flaw : Flaw
  expected : Expected := .firstDocument
  after : List Expected := []
  handles : List (List Char × List Char) := []

namespace EventReader

abbrev Result := Except Flaw (Event × EventReader)

def refuse {α : Type} : Except Flaw α := .error (.malformed .events)

def peek (r : EventReader) : Except Flaw Token :=
  match r.tokens with
  | t :: _ => .ok t
  | [] => .error r.flaw

def next (r : EventReader) : EventReader := { r with tokens := r.tokens.tail }

/-- Comes back to a state when the node that is read now is complete. -/
def waitFor (r : EventReader) (s : Expected) : EventReader := { r with after := s :: r.after }

def sees (r : EventReader) (kinds : List TokenKind) : Except Flaw Bool := do
  return kinds.contains (← r.peek).kind

def done (r : EventReader) (e : Event) : Event × EventReader :=
  match r.after with
  | s :: after => (e, { r with expected := s, after })
  | [] => (e, { r with expected := .document })

def emptyScalar (mark : Mark) : Event := .scalar {} true [] mark

def defaultHandles : List (List Char × List Char) :=
  [(['!'], ['!']), (['!', '!'], "tag:yaml.org,2002:".toList)]

/-! ## Nodes -/

def isDefaultTag (tag : Option (List Char)) : Bool := tag.isNone || tag == some ['!']

def expand (r : EventReader) (handle : Option (List Char)) (suffix : List Char) :
    Except Flaw (List Char) :=
  match handle with
  | none => .ok suffix
  | some h => match r.handles.lookup h with
    | some e => .ok (e ++ suffix)
    | none => refuse

/-- An anchor and a tag in either order, and where the first of them starts. The tag is expanded
once both are read. -/
def properties (r : EventReader) : Except Flaw (Properties × Option Mark × EventReader) := do
  let first ← r.peek
  match first.kind with
  | .anchor name =>
    let r := r.next
    match (← r.peek).kind with
    | .tag handle suffix =>
      let r := r.next
      return (⟨some name, some (← r.expand handle suffix)⟩, some first.start, r)
    | _ => return (⟨some name, none⟩, some first.start, r)
  | .tag handle suffix =>
    let r := r.next
    match (← r.peek).kind with
    | .anchor name =>
      let r := r.next
      return (⟨some name, some (← r.expand handle suffix)⟩, some first.start, r)
    | _ => return (⟨none, some (← r.expand handle suffix)⟩, some first.start, r)
  | _ => return ({}, none, r)

/-- A node. Block collections may stand only within blocks, and a sequence without an indentation of
its own only as a part of a block mapping. -/
def node (r : EventReader) (block indentless : Bool) : Result := do
  let t ← r.peek
  if let .alias name := t.kind then return r.next.done (.alias name)
  let (p, start, r) ← r.properties
  let t ← r.peek
  let mark := start.getD t.start
  match t.kind with
  | .blockEntry =>
    if indentless then return (.sequenceStart p mark, { r with expected := .indentlessEntry })
    else empty r p start
  | .scalar text isPlain =>
    let plain := (isPlain && p.tag.isNone) || p.tag == some ['!']
    return r.next.done (.scalar p plain text mark)
  | .flowSequence => return (.sequenceStart p mark, { r.next with expected := .flowEntry true })
  | .flowMapping => return (.mappingStart p mark, { r.next with expected := .flowKey true })
  | .blockSequence =>
    if block then return (.sequenceStart p mark, { r.next with expected := .blockEntry })
    else empty r p start
  | .blockMapping =>
    if block then return (.mappingStart p mark, { r.next with expected := .blockKey })
    else empty r p start
  | _ => empty r p start
where
  empty (r : EventReader) (p : Properties) (start : Option Mark) : Result :=
    match start with
    | some mark => .ok (r.done (.scalar p (isDefaultTag p.tag) [] mark))
    | none => refuse

/-- A node unless one of some tokens follows, in whose place the node is empty. Afterwards comes
`next`. -/
def nodeUnless (r : EventReader) (kinds : List TokenKind) (next : Expected) (mark : Mark)
    (block indentless : Bool) : Result := do
  if ← r.sees kinds then return (emptyScalar mark, { r with expected := next })
  else (r.waitFor next).node block indentless

/-! ## Documents -/

/-- Reads directives; at most one names a version, which must be 1, and each handle is named once. -/
def directives : List Token → Flaw → Bool → List (List Char × List Char) →
    Except Flaw (List Token × List (List Char × List Char))
  | [], flaw, _, _ => .error flaw
  | t :: rest, flaw, versioned, handles =>
    match t.kind with
    | .version major =>
      if versioned ∨ major ≠ 1 then refuse else directives rest flaw true handles
    | .handle handle expansion =>
      if (handles.lookup handle).isSome then refuse
      else directives rest flaw versioned ((handle, expansion) :: handles)
    | .otherDirective => directives rest flaw versioned handles
    | _ => .ok (t :: rest, handles)

def explicitDocument (r : EventReader) : Result := do
  let r := { r with tokens := r.tokens.dropWhile (·.kind == TokenKind.documentEnd) }
  if ← r.sees [.streamEnd] then return (.streamEnd, r.next)
  let (tokens, handles) ← directives r.tokens r.flaw false []
  let r := { r with tokens, handles := handles ++ defaultHandles }
  if !(← r.sees [.documentStart]) then refuse
  return (.documentStart,
    { r.next.waitFor .documentEnd with expected := .documentContent })

def startsDocument : TokenKind → Bool
  | .version _ | .handle .. | .otherDirective | .documentStart => true
  | _ => false

def firstDocument (r : EventReader) : Result := do
  let t ← r.peek
  if startsDocument t.kind || t.kind == .streamEnd then r.explicitDocument
  else return (.documentStart,
    { r.waitFor .documentEnd with expected := .node, handles := defaultHandles })

def documentContent (r : EventReader) : Result := do
  let t ← r.peek
  if startsDocument t.kind || t.kind == .documentEnd || t.kind == .streamEnd then
    return r.done (emptyScalar t.start)
  else r.node true false

def documentEnd (r : EventReader) : Result := do
  let t ← r.peek
  let r := if t.kind == .documentEnd then r.next else r
  return (.documentEnd, { r with expected := .document })

/-! ## Collections -/

def blockEntry (r : EventReader) : Result := do
  let t ← r.peek
  match t.kind with
  | .blockEntry => r.next.nodeUnless [.blockEntry, .blockEnd] .blockEntry t.stop true false
  | .blockEnd => return r.next.done .sequenceEnd
  | _ => refuse

def indentlessEntry (r : EventReader) : Result := do
  let t ← r.peek
  match t.kind with
  | .blockEntry =>
    r.next.nodeUnless [.blockEntry, .key, .value, .blockEnd] .indentlessEntry t.stop true false
  | _ => return r.done .sequenceEnd

def blockKey (r : EventReader) : Result := do
  let t ← r.peek
  match t.kind with
  | .key => r.next.nodeUnless [.key, .value, .blockEnd] .blockValue t.stop true true
  | .blockEnd => return r.next.done .mappingEnd
  | _ => refuse

def blockValue (r : EventReader) : Result := do
  let t ← r.peek
  match t.kind with
  | .value => r.next.nodeUnless [.key, .value, .blockEnd] .blockKey t.stop true true
  | _ => return (emptyScalar t.start, { r with expected := .blockKey })

/-- Skips the comma in front of every entry of a flow collection but the first. -/
def comma (r : EventReader) (first : Bool) : Except Flaw EventReader := do
  if first then return r
  if ← r.sees [.flowEntry] then return r.next
  refuse

def flowEntry (r : EventReader) (first : Bool) : Result := do
  if (← r.peek).kind == .flowSequenceEnd then return r.next.done .sequenceEnd
  let r ← r.comma first
  let t ← r.peek
  match t.kind with
  | .key => return (.mappingStart {} t.start, { r with expected := .pairKey })
  | .flowSequenceEnd => return r.next.done .sequenceEnd
  | _ => (r.waitFor (.flowEntry false)).node false false

def pairKey (r : EventReader) : Result := do
  let t ← r.peek
  r.next.nodeUnless [.value, .flowEntry, .flowSequenceEnd] .pairValue t.stop false false

def pairValue (r : EventReader) : Result := do
  let t ← r.peek
  match t.kind with
  | .value => r.next.nodeUnless [.flowEntry, .flowSequenceEnd] .pairEnd t.stop false false
  | _ => return (emptyScalar t.start, { r with expected := .pairEnd })

def pairEnd (r : EventReader) : Result := do
  let _ ← r.peek
  return (.mappingEnd, { r with expected := .flowEntry false })

def flowKey (r : EventReader) (first : Bool) : Result := do
  if (← r.peek).kind == .flowMappingEnd then return r.next.done .mappingEnd
  let r ← r.comma first
  let t ← r.peek
  match t.kind with
  | .key => r.next.nodeUnless [.value, .flowEntry, .flowMappingEnd] .flowValue t.stop false false
  | .flowMappingEnd => return r.next.done .mappingEnd
  | _ => (r.waitFor .flowEmptyValue).node false false

def flowValue (r : EventReader) : Result := do
  let t ← r.peek
  match t.kind with
  | .value => r.next.nodeUnless [.flowEntry, .flowMappingEnd] (.flowKey false) t.stop false false
  | _ => return (emptyScalar t.start, { r with expected := .flowKey false })

def flowEmptyValue (r : EventReader) : Result := do
  let t ← r.peek
  return (emptyScalar t.start, { r with expected := .flowKey false })

def read (r : EventReader) : Result :=
  match r.expected with
  | .firstDocument => r.firstDocument
  | .document => r.explicitDocument
  | .documentContent => r.documentContent
  | .documentEnd => r.documentEnd
  | .node => r.node true false
  | .blockEntry => r.blockEntry
  | .indentlessEntry => r.indentlessEntry
  | .blockKey => r.blockKey
  | .blockValue => r.blockValue
  | .flowEntry first => r.flowEntry first
  | .pairKey => r.pairKey
  | .pairValue => r.pairValue
  | .pairEnd => r.pairEnd
  | .flowKey first => r.flowKey first
  | .flowValue => r.flowValue
  | .flowEmptyValue => r.flowEmptyValue

/-- Reads events until the end, and gives those before a flaw together with it. -/
def readAll : (fuel : Nat) → List Event → EventReader → List Event × Option Flaw
  | 0, out, _ => (out.reverse, none)
  | fuel + 1, out, r =>
    match r.read with
    | .error e => (out.reverse, some e)
    | .ok (.streamEnd, _) => ((Event.streamEnd :: out).reverse, none)
    | .ok (e, r) => readAll fuel (e :: out) r

end EventReader

/-- The events of tokens, up to the first flaw. A token gives at most four events. -/
def events (ts : List Token × Option Flaw) : List Event × Option Flaw :=
  EventReader.readAll (4 * ts.1.length + 16) []
    { tokens := ts.1, flaw := ts.2.getD (.malformed .events) }

end PenPlotter.Yaml
