import PenPlotter.Value.Basic
/-!
# Collections

The collections of a document, by number. A part of a collection is a scalar's value or a collection
in its turn, so collections may be shared and may hold themselves. `Part.value` turns a part into a
value of its own, in which there is a reference where a collection comes again within itself.

A set lists its members by their slots in a table. Numbers have a slot by their value, taken modulo a
prime, and go to a further one where it is taken; equal numbers of different kinds have the same. A
set with other members is listed in the order in which they were added.
-/
namespace PenPlotter.Value

/-- The prime modulo which numbers are taken. Two to the power of 61 is 1 modulo it. -/
def slotPrime : Nat := twoTo 61 - 1

/-- A signed number as a word of 64 bits. The number -1 is not used. -/
def slotWord (negative : Bool) (n : Nat) : Nat :=
  let i : Int := if negative then -(n : Int) else n
  ((if i = -1 then -2 else i) % (twoTo 64 : Nat)).toNat

/-- The word that says where a value goes: numbers have one by their value, a nan excepted, and of
texts only the empty one. -/
def slotKey? : Value → Option Nat
  | .bool b => some b.toNat
  | .int i => some (slotWord (decide (i < 0)) (i.natAbs % slotPrime))
  | .double x => match x with
    | .finite s m e _ => some (slotWord s (m * twoTo (e % 61).toNat % slotPrime))
    | .infinite s => some (slotWord s 314159)
    | .nan _ => none
  | .str s => if s.isEmpty then some 0 else none
  | .bytes b => if b.isEmpty then some 0 else none
  | _ => none

/-- The size of the table for some members: at least 8, and more than twice as many from 5 on. -/
def slotCount (members : Nat) : Nat :=
  if members < 5 then 8 else twoTo ((2 * members).log2 + 1)

def slotSteps : Nat := 9

/-- The first free slot from `i` on. After every run of slots the search jumps; `rest` is what is left
of the number's word to decide where to. -/
def freeSlot (table : Array (Option Value)) : (fuel : Nat) → (i rest : Nat) → Nat
  | 0, i, _ => i
  | fuel + 1, i, rest =>
    let run := if i + slotSteps < table.size then slotSteps + 1 else 1
    match (List.range' i run).find? fun j => (table[j]?.getD none).isNone with
    | some j => j
    | none => freeSlot table fuel ((i * 5 + 1 + rest / 32) % table.size) (rest / 32)

def addToSlots (table : Array (Option Value)) (member : Value × Nat) : Array (Option Value) :=
  let i := freeSlot table (table.size + 64) (member.2 % table.size) member.2
  table.setIfInBounds i (some member.1)

def inSlots (members : List Value) : List Value :=
  match members.mapM fun v => v.slotKey?.map (v, ·) with
  | some keyed =>
    let table := Array.replicate (slotCount members.length) none
    (keyed.foldl addToSlots table).toList.filterMap id
  | none => members

end PenPlotter.Value

namespace PenPlotter.Yaml

inductive Part where
  | scalar (v : Value)
  | collection (n : Nat)

/-- The members of a set and the keys of a mapping are scalars, since no collection can be one. -/
inductive Collection where
  | list (items : List Part)
  | pairs (items : List (Part × Part))
  | set (members : List Value)
  | map (entries : List (Value × Part))

def Collection.kindName : Collection → String
  | .list _ | .pairs _ => "list"
  | .set _ => "set"
  | .map _ => "dict"

/-- A value within collections, and whether it refers to one of them or to itself. -/
structure Unfolded where
  value : Value
  cyclic : Bool := false

namespace Unfolded

def tie (label : Label) (container : Value) (parts : List Unfolded) : Unfolded :=
  if parts.any (·.cyclic) then ⟨.knot label container, true⟩ else ⟨container, false⟩

def list (label : Label) (items : List Unfolded) : Unfolded :=
  tie label (.list (items.map (·.value))) items

def pair (label : Label) (x y : Unfolded) : Unfolded :=
  tie label (.tuple [x.value, y.value]) [x, y]

def map (label : Label) (entries : List (Value × Unfolded)) : Unfolded :=
  tie label (.map (entries.map fun e => (e.1, e.2.value))) (entries.map (·.2))

end Unfolded

/-- The collections that are known as values. They hold no references, so they are the same value at
every place. -/
abbrev Known := StateM (Array (Option Value))

/-- Unfolds the parts of a list, given how a part is unfolded within some collections. A pair is a
collection too. -/
def unfoldPairs (part : List Label → Part → Known Unfolded) (path : List Label) (n : Nat) :
    (place : Nat) → List (Part × Part) → Known (List Unfolded)
  | _, [] => return []
  | place, (x, y) :: rest => do
    let label := (n, place)
    let u ← part (label :: path) x
    let v ← part (label :: path) y
    return .pair label u v :: (← unfoldPairs part path n (place + 1) rest)

def Collection.unfold (part : List Label → Part → Known Unfolded) (path : List Label) (n : Nat) :
    Collection → Known Unfolded
  | .list items => do return .list (n, 0) (← items.mapM (part ((n, 0) :: path)))
  | .pairs items => do return .list (n, 0) (← unfoldPairs part ((n, 0) :: path) n 1 items)
  | .set members => pure ⟨.set (Value.inSlots members), false⟩
  | .map entries => do
    return .map (n, 0) (← entries.mapM fun e => do return (e.1, ← part ((n, 0) :: path) e.2))

def Collection.kind : Collection → ContainerKind
  | .map _ => .map
  | _ => .list

/-- Unfolds a part within the collections of `path`. Each step down adds another collection to them,
so their number bounds the depth. -/
def Part.unfold (cs : Array Collection) : (fuel : Nat) → List Label → Part → Known Unfolded
  | _, _, .scalar v => pure ⟨v, false⟩
  | 0, _, .collection _ => pure ⟨.null, false⟩
  | fuel + 1, path, .collection n => do
    if let some v := (← get)[n]?.join then return ⟨v, false⟩
    match cs[n]? with
    | none => return ⟨.null, false⟩
    | some c =>
      if path.contains (n, 0) then return ⟨.back (n, 0) c.kind, true⟩
      let u ← c.unfold (unfold cs fuel) path n
      if !u.cyclic then modify fun known => known.setIfInBounds n (some u.value)
      return u

def Part.value (cs : Array Collection) (p : Part) : Value :=
  ((p.unfold cs (cs.size + 1) []).run (Array.replicate cs.size none)).1.value.untied

end PenPlotter.Yaml
