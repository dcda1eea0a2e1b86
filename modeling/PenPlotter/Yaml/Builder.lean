import PenPlotter.Value.Text
import PenPlotter.Yaml.Collection
import PenPlotter.Yaml.Node
import PenPlotter.Yaml.Scalars
/-!
# Building collections

From the nodes of a document to its collections. A mapping is built at once and may not hold a key
twice. Any other collection is empty at first and waits to be filled; what waits is filled in turn
after what is being built. So of several flaws one that is less deep in such collections counts. A
mapping that needs itself before it is finished is a flaw; through a collection that is filled later
it may hold itself. Mappings within each other take calls within each other.
-/
namespace PenPlotter.Yaml
open Text

inductive Progress where
  | untouched
  | begun
  | built (part : Part)

/-- The nodes that wait are in reverse, each with the number of its collection. -/
structure Builder where
  graph : Graph
  progress : Array Progress
  collections : Array Collection := #[]
  waiting : List (Nat × Nat) := []

abbrev Building := StateT Builder (Except Flaw)

namespace Graph

/-- The text of a scalar. A mapping has the text of what a value key names. -/
def scalarText (g : Graph) : (room : Nat) → Nat → Except Flaw (List Code)
  | 0, _ => tooDeep
  | room + 1, n => match g.content? n with
    | some (.scalar text) => .ok text
    | some (.mapping entries) => match entries.find? fun e => g.hasTag .value e.1 with
      | some e => g.scalarText room e.2
      | none => refuse
    | _ => refuse

/-- The value of a scalar. A timestamp is not looked for in a mapping. -/
def scalar (g : Graph) (room n : Nat) (tag : Tag) : Except Flaw Value := do
  if tag.isReadable then
    let text ← g.scalarText room n
    match tag, g.content? n with
    | .timestamp, some (.mapping _) => .error (.fault (.notMatchable "list"))
    | tag, _ => readScalar tag (n + 1) text
  else refuse

def onlyEntry (g : Graph) (n : Nat) : Except Flaw (Nat × Nat) :=
  match g.content? n with
  | some (.mapping [e]) => .ok e
  | _ => refuse

end Graph

namespace Builder

def add (c : Collection) : Building Nat := modifyGet fun b =>
  let n := b.collections.size
  (n, { b with collections := b.collections.push c })

def addEmpty (node : Nat) (empty : Collection) : Building Part := do
  let c ← add empty
  modify fun b => { b with waiting := (node, c) :: b.waiting }
  return .collection c

def setProgress (node : Nat) (p : Progress) : Building Unit :=
  modify fun b => { b with progress := b.progress.setIfInBounds node p }

/-- The scalar of a key, which no collection can be. -/
def keyOf (p : Part) : Building (Except Fault Value) := do
  match p with
  | .scalar v => return .ok v
  | .collection n =>
    return .error (.unhashable (((← get).collections[n]?.map (·.kindName)).getD ""))

/-- The flaw of a key that stands twice. -/
def duplicate (key : Value) (mark : Mark) : Flaw :=
  match key.textCodes with
  | .ok text => .duplicateKey text mark
  | .error f => .fault f

/-- Builds the entries of a mapping behind those of `sofar`, which are in reverse. -/
def entries (build : Nat → Building Part) :
    List (Nat × Nat) → (sofar : List (Value × Part)) → Building (List (Value × Part))
  | [], sofar => return sofar.reverse
  | (k, v) :: rest, sofar => do
    match ← keyOf (← build k) with
    | .error f => throw (.fault f)
    | .ok key =>
      if sofar.any fun e => key.same e.1 then throw (duplicate key ((← get).graph.mark k))
      let value ← build v
      entries build rest ((key, value) :: sofar)

/-- Builds a mapping. Text or a sequence in its place must be empty. -/
def mapping (build : Nat → Building Part) (node : Nat) : Building Part := do
  let g := (← get).graph
  let es ← match g.content? node with
    | some (.mapping es) => entries build es []
    | some (.scalar []) | some (.sequence []) => pure []
    | some (.sequence (n :: _)) =>
      throw (.fault (.notAPair (((g.content? n).map (·.kindName)).getD "")))
    | _ => throw (.fault (.pairTooShort 1))
  return .collection (← add (.map es))

/-- Builds a node, unless it has been built. Each of `levels` takes two calls. -/
def build : (levels : Nat) → Nat → Building Part
  | 0, _ => tooDeep
  | levels + 1, n => do
    let progress := (← get).progress[n]?
    let g := (← get).graph
    match progress, g.tag? n with
    | some (.built p), _ => return p
    | some .untouched, some tag =>
      setProgress n .begun
      let p ← match tag with
        | .seq => addEmpty n (.list [])
        | .omap | .pairs => addEmpty n (.pairs [])
        | .set => addEmpty n (.set [])
        | .map => mapping (build levels) n
        | tag => do pure (.scalar (← g.scalar (2 * (levels + 1)) n tag))
      setProgress n (.built p)
      return p
    | _, _ => Graph.refuse

def buildNode (n : Nat) : Building Part := build (callRoom / 2) n

def pairOf (n : Nat) : Building (Part × Part) := do
  let (k, v) ← (← get).graph.onlyEntry n
  return (← buildNode k, ← buildNode v)

/-- Builds the members of a set behind those of `sofar`, which are in reverse. -/
def members : List (Nat × Nat) → (sofar : List Value) → Building (List Value)
  | [], sofar => return sofar.reverse
  | (k, v) :: rest, sofar => do
    match ← keyOf (← buildNode k) with
    | .error _ => Graph.refuse
    | .ok key =>
      let _ ← buildNode v
      members rest (if sofar.any key.same then sofar else key :: sofar)

def filling (node : Nat) (empty : Collection) : Building Collection := do
  match empty, (← get).graph.content? node with
  | .list _, some (.sequence items) => return .list (← items.mapM buildNode)
  | .pairs _, some (.sequence items) => return .pairs (← items.mapM pairOf)
  | .set _, some (.mapping _) =>
    let g ← (← get).graph.flatten node
    modify fun b => { b with graph := g }
    return .set (← members (g.entries node) [])
  | _, _ => Graph.refuse

def fill (task : Nat × Nat) : Building Unit := do
  match (← get).collections[task.2]? with
  | none => return
  | some empty =>
    let c ← filling task.1 empty
    modify fun b => { b with collections := b.collections.setIfInBounds task.2 c }

/-- Fills what waits, round after round. Each node waits once at most. -/
def settle : (rounds : Nat) → Building Unit
  | 0 => return
  | rounds + 1 => do
    let tasks := (← get).waiting.reverse
    if tasks.isEmpty then return
    modify fun b => { b with waiting := [] }
    tasks.forM fill
    settle rounds

end Builder

def Graph.value (g : Graph) (root : Nat) : Except Flaw Value := do
  let work : Building Part := do
    let p ← Builder.buildNode root
    Builder.settle (g.size + 1)
    return p
  let (p, b) ← work.run { graph := g, progress := Array.replicate g.size .untouched }
  return p.value b.collections

end PenPlotter.Yaml
