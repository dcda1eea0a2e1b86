import PenPlotter.Yaml.Event
import PenPlotter.Yaml.Tag
/-!
# Nodes and merge keys

The nodes of a document as a graph. A node is a number, and an alias is the number of the node that
it names, so a collection may be a part of several others and even of itself. An anchor is used once
in a document, and an alias comes after its anchor. Reading goes down into collections by calls within
each other, whose number has a limit.

A merge key brings the entries of another mapping, or of several ones, into the mapping that it
stands in. They come in front of the mapping's own entries, in the order of the merge keys; of a
sequence the last mapping comes first. The mappings that are brought in lose their own merge keys in
the same way, by a call within the other, and what is changed is changed wherever the mapping is used.
-/
namespace PenPlotter.Yaml
open Text

inductive Content where
  | scalar (text : List Code)
  | sequence (items : List Nat)
  | mapping (entries : List (Nat × Nat))

structure Node where
  tag : Tag
  mark : Mark
  content : Content

def Content.kindName : Content → String
  | .scalar _ => "ScalarNode"
  | .sequence _ => "SequenceNode"
  | .mapping _ => "MappingNode"

abbrev Graph := Array Node

namespace Graph

def tag? (g : Graph) (n : Nat) : Option Tag := g[n]?.map (·.tag)

def mark (g : Graph) (n : Nat) : Mark := (g[n]?.map (·.mark)).getD {}

def content? (g : Graph) (n : Nat) : Option Content := g[n]?.map (·.content)

def entries (g : Graph) (n : Nat) : List (Nat × Nat) :=
  match g.content? n with
  | some (.mapping es) => es
  | _ => []

def setContent (g : Graph) (n : Nat) (c : Content) : Graph :=
  g.modify n fun node => { node with content := c }

def setTag (g : Graph) (n : Nat) (t : Tag) : Graph :=
  g.modify n fun node => { node with tag := t }

end Graph

/-- A collection of which not all parts have been read; parts are in reverse. -/
inductive OpenNode where
  | sequence (node : Nat) (items : List Nat)
  | mapping (node : Nat) (entries : List (Nat × Nat)) (key : Option Nat)

/-- The nodes read so far: the graph, the open collections, innermost first, the nodes with anchors,
and the root once it is complete. An open collection has its number, but no parts yet. -/
structure NodeReader where
  graph : Graph := #[]
  openNodes : List OpenNode := []
  anchors : List (List Char × Nat) := []
  root : Option Nat := none

/-- How many calls within each other reading a document may make. It is what callers leave of the thousand
that the interpreter allows; the exact number depends on how deep the caller stands. -/
def callRoom : Nat := 960

def tooDeep {α : Type} : Except Flaw α := .error (.fault (.tooDeep ""))

def tagOr (tag : Option (List Char)) (otherwise : Tag) : Tag :=
  match tag with
  | none => otherwise
  | some t => if t = ['!'] then otherwise else Tag.ofText t

def untaggedScalar (isPlain : Bool) (text : List Code) : Tag :=
  match isPlain, chars? text with
  | true, some s => plainTag s
  | _, _ => .str

namespace NodeReader

def refuse {α : Type} : Except Flaw α := .error (.malformed .nodes)

def add (r : NodeReader) (n : Nat) : NodeReader :=
  match r.openNodes with
  | [] => { r with root := some n }
  | .sequence m items :: rest => { r with openNodes := .sequence m (n :: items) :: rest }
  | .mapping m entries none :: rest => { r with openNodes := .mapping m entries (some n) :: rest }
  | .mapping m entries (some k) :: rest =>
    { r with openNodes := .mapping m ((k, n) :: entries) none :: rest }

/-- Gives a node its number and notes its anchor. -/
def declare (r : NodeReader) (anchor : Option (List Char)) (node : Node) :
    Except Flaw (Nat × NodeReader) :=
  let n := r.graph.size
  let r := { r with graph := r.graph.push node }
  match anchor with
  | none => .ok (n, r)
  | some a =>
    if (r.anchors.lookup a).isSome then refuse
    else .ok (n, { r with anchors := (a, n) :: r.anchors })

/-- Goes down into one more collection, which takes two calls. -/
def enter (r : NodeReader) (node : OpenNode) : Except Flaw NodeReader :=
  if 2 * r.openNodes.length < callRoom then .ok { r with openNodes := node :: r.openNodes }
  else tooDeep

def close (r : NodeReader) : NodeReader :=
  match r.openNodes with
  | [] => r
  | .sequence n items :: rest =>
    { r with graph := r.graph.setContent n (.sequence items.reverse), openNodes := rest }.add n
  | .mapping n entries _ :: rest =>
    { r with graph := r.graph.setContent n (.mapping entries.reverse), openNodes := rest }.add n

def step (r : NodeReader) : Event → Except Flaw NodeReader
  | .alias name => match r.anchors.lookup name with
    | some n => .ok (r.add n)
    | none => refuse
  | .scalar p isPlain text mark => do
    let (n, r) ← r.declare p.anchor
      ⟨tagOr p.tag (untaggedScalar isPlain text), mark, .scalar text⟩
    return r.add n
  | .sequenceStart p mark => do
    let (n, r) ← r.declare p.anchor ⟨tagOr p.tag .seq, mark, .sequence []⟩
    r.enter (.sequence n [])
  | .mappingStart p mark => do
    let (n, r) ← r.declare p.anchor ⟨tagOr p.tag .map, mark, .mapping []⟩
    r.enter (.mapping n [] none)
  | .sequenceEnd | .mappingEnd => .ok r.close
  | .documentStart => if r.root.isSome then refuse else .ok r
  | .documentEnd | .streamEnd => .ok r

def run (flaw : Option Flaw) : List Event → NodeReader → Except Flaw NodeReader
  | [], r => match flaw with
    | some e => .error e
    | none => .ok r
  | e :: es, r => do run flaw es (← r.step e)

end NodeReader

/-- The graph and the root node of the only document in some events, if there is one. -/
def node? (es : List Event × Option Flaw) : Except Flaw (Option (Graph × Nat)) := do
  let r ← NodeReader.run es.2 es.1 {}
  return r.root.map fun n => (r.graph, n)

end PenPlotter.Yaml

namespace PenPlotter.Yaml.Graph

def hasTag (g : Graph) (t : Tag) (n : Nat) : Bool := g.tag? n == some t

/-- Makes ordinary texts of the value keys among some keys. -/
def settleValueKeys (g : Graph) (keys : List Nat) : Graph :=
  keys.foldl (fun g k => if g.hasTag .value k then g.setTag k .str else g) g

def mergeCount (g : Graph) : Nat :=
  (List.range g.size).foldl (fun n k => n + (g.entries k).countP fun e => g.hasTag .merge e.1) 0

def refuse {α : Type} : Except Flaw α := .error (.malformed .values)

/-- The entries that a merge key with some value brings, once `flatten` has rid it of merge keys. -/
def broughtBy (flatten : Nat → Graph → Except Flaw Graph) (value : Nat) (g : Graph) :
    Except Flaw (List (Nat × Nat) × Graph) :=
  let bring (sofar : List (Nat × Nat) × Graph) (n : Nat) :
      Except Flaw (List (Nat × Nat) × Graph) :=
    match sofar.2.content? n with
    | some (.mapping _) => do
      let g ← flatten n sofar.2
      return (g.entries n ++ sofar.1, g)
    | _ => refuse
  match g.content? value with
  | some (.sequence items) => items.foldlM bring ([], g)
  | _ => bring ([], g) value

/-- Rids a mapping of the merge keys behind its first `index` entries. `brought` are the entries that
those in front of them have brought. Each step takes one merge key away. -/
def flattenFrom : (fuel room : Nat) → (index : Nat) → (brought : List (Nat × Nat)) → (node : Nat) →
    Graph → Except Flaw Graph
  | 0, _, _, _, _, _ => refuse
  | _, 0, _, _, _, _ => tooDeep
  | fuel + 1, room + 1, index, brought, node, g => do
    let own := ((g.entries node).drop index).takeWhile fun e => !g.hasTag .merge e.1
    let g := g.settleValueKeys (own.map (·.1))
    let index := index + own.length
    match (g.entries node)[index]? with
    | none =>
      return if brought.isEmpty then g
        else g.setContent node (.mapping (brought ++ g.entries node))
    | some (_, value) =>
      let g := g.setContent node (.mapping ((g.entries node).eraseIdx index))
      let (more, g) ← broughtBy (flattenFrom fuel room 0 []) value g
      flattenFrom fuel (room + 1) index (brought ++ more) node g

def flatten (g : Graph) (node : Nat) : Except Flaw Graph :=
  flattenFrom (g.mergeCount + 1) callRoom 0 [] node g

end PenPlotter.Yaml.Graph
