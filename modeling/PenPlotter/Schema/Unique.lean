import PenPlotter.Schema.Basic
import PenPlotter.Text.Code
/-!
# Lists without equal items

Whether the items of a list are all different, as schemas see it. Items that have an order are
sorted, and then only neighbours are compared; others are compared each with each. An order may be
partial, as that of sets, or no order at all, as that of a nan among numbers; equal items may then end
up apart, and `Value.unique` holds although two items are equal.

A container that holds itself is equal to itself without a look at its parts. Two different ones that go
on alike are compared without end, up to the interpreter's limit on nested calls.
-/
namespace PenPlotter.Value
open Text

def integer? : Value → Option Int
  | .bool b => some b.toInt
  | .int i => some i
  | _ => none

def numberBefore? (a b : Value) : Option Bool :=
  match a, b, a.integer?, b.integer? with
  | _, _, some i, some j => some (decide (i < j))
  | _, .double y, some i, none => some (y.compareInt i == some .gt)
  | .double x, _, none, some j => some (x.compareInt j == some .lt)
  | .double x, .double y, none, none => some (x.numLt y)
  | _, _, _, _ => none

def textPoints? : Value → Option (List Nat)
  | .str s => some (s.toList.map Char.toNat)
  | .codes s => some (s.map Code.toNat)
  | _ => none

def scalarBefore? (a b : Value) : Option Bool :=
  match a, b, a.textPoints?, b.textPoints? with
  | _, _, some s, some t => some (!inOrder t s)
  | .bytes s, .bytes t, _, _ => some (!inOrder (t.map UInt8.toNat) (s.map UInt8.toNat))
  | .date d, .date e, _, _ => some (decide (d.ordinal < e.ordinal))
  | .moment m, .moment n, _, _ =>
    if m.offset.isSome == n.offset.isSome then some (decide (m.instant < n.instant)) else none
  | _, _, _, _ => numberBefore? a b

/-! ## Comparing -/

/-- Why it is not told which of two values comes first: they have no order, or a fault is met. -/
inductive Clash where
  | unordered
  | fault (f : Fault)

def scalarBefore (a b : Value) : Except Clash Bool :=
  match scalarBefore? a b with
  | some before => .ok before
  | none => .error .unordered

def label? : Value → Option Label
  | .knot l _ | .back l _ => some l
  | _ => none

def identical (a b : Value) : Bool := a.label?.isSome && a.label? == b.label?

/-- The container that a value is or refers to, `known` being the containers by label. -/
def opened (known : Label → Value) : Value → Value
  | .knot _ v => v
  | .back l _ => known l
  | v => v

def allAlike (alike : Value → Value → Except Fault Bool) : List Value → List Value → Except Fault Bool
  | [], [] => .ok true
  | x :: xs, y :: ys => do if ← alike x y then allAlike alike xs ys else return false
  | _, _ => .ok false

def sequencesAlike (alike : Value → Value → Except Fault Bool) (xs ys : List Value) : Except Fault Bool :=
  if xs.length = ys.length then allAlike alike xs ys else .ok false

def entriesAlike (alike : Value → Value → Except Fault Bool) :
    List (Value × Value) → List (Value × Value) → Except Fault Bool
  | [], _ => .ok true
  | (k, x) :: es, fs => match fs.find? fun f => k.same f.1 with
    | some f => do if ← alike x f.2 then entriesAlike alike es fs else return false
    | none => .ok false

def mappingsAlike (alike : Value → Value → Except Fault Bool) (es fs : List (Value × Value)) :
    Except Fault Bool :=
  if es.length = fs.length then entriesAlike alike es fs else .ok false

/-- How many comparisons of the interpreter fit within each other, beside the calls around them. -/
def compareRoom : Nat := 950

/-- How many comparisons of schemas do. Each takes three calls. -/
def equalRoom : Nat := 310

section
variable (known : Label → Value)

def sameIn : (room : Nat) → Value → Value → Except Fault Bool
  | 0, _, _ => .error (.tooDeep " in comparison")
  | room + 1, a, b =>
    if identical a b then .ok true
    else match opened known a, opened known b with
      | .list xs, .list ys | .tuple xs, .tuple ys => sequencesAlike (sameIn room) xs ys
      | .map es, .map fs => mappingsAlike (sameIn room) es fs
      | x, y => .ok (x.same y)

def sequenceBefore (same : Value → Value → Except Fault Bool)
    (before : Value → Value → Except Clash Bool) : List Value → List Value → Except Clash Bool
  | [], ys => .ok (!ys.isEmpty)
  | _ :: _, [] => .ok false
  | x :: xs, y :: ys => do
    if ← (same x y).mapError .fault then sequenceBefore same before xs ys else before x y

/-- Whether a value comes before another one. A set comes before the sets that hold all of it and more. -/
def beforeIn : (room : Nat) → Value → Value → Except Clash Bool
  | 0, _, _ => .error (.fault (.tooDeep " in comparison"))
  | room + 1, a, b => match opened known a, opened known b with
    | .list xs, .list ys | .tuple xs, .tuple ys =>
      sequenceBefore (sameIn known room) (beforeIn room) xs ys
    | .set xs, .set ys => .ok (decide (xs.length < ys.length) && sameWithin xs ys)
    | x, y => scalarBefore x y

/-- The order of the items of a list. Booleans have none. -/
def itemBefore : Value → Value → Except Clash Bool
  | .bool _, _ | _, .bool _ => .error .unordered
  | a, b => beforeIn known compareRoom a b

/-- Equality as schemas see it: sequences of any kind are compared item by item. -/
def equalIn : (room : Nat) → Value → Value → Except Fault Bool
  | 0, _, _ => .error (.tooDeep "")
  | room + 1, a, b =>
    if identical a b then .ok true
    else match opened known a, opened known b with
      | .list xs, .list ys | .list xs, .tuple ys | .tuple xs, .list ys | .tuple xs, .tuple ys =>
        sequencesAlike (equalIn room) xs ys
      | .list xs, .bytes ys | .tuple xs, .bytes ys | .bytes ys, .list xs | .bytes ys, .tuple xs =>
        .ok (holdsBytes xs ys)
      | .map es, .map fs => mappingsAlike (equalIn room) es fs
      | x, y => .ok (x.equal y)

end

/-! ## Sorting -/

section
variable (before : Value → Value → Except Clash Bool)

/-- How many values behind `x` go on falling, or go on without a fall. -/
def runLength (falls : Bool) (x : Value) : List Value → Except Clash Nat
  | [] => .ok 0
  | y :: ys => do
    if (← before y x) == falls then return (← runLength falls y ys) + 1 else return 0

/-- The place of a value among the `size` ones from `low` on, behind those that it does not come
before, by halving. -/
def place (x : Value) (sorted : List Value) (low size : Nat) : Except Clash Nat :=
  if _h : size = 0 then .ok low
  else match sorted[low + size / 2]? with
    | none => .ok low
    | some middle => do
      if ← before x middle then place x sorted low (size / 2)
      else place x sorted (low + size / 2 + 1) (size - size / 2 - 1)
termination_by size
decreasing_by all_goals omega

/-- Some values in order: the run at their start as it is, a falling one in reverse, and each further
value put in its place. -/
def sorted : List Value → Except Clash (List Value)
  | [] => .ok []
  | [x] => .ok [x]
  | x :: y :: rest => do
    let falls ← before y x
    let size := (← runLength before falls x (y :: rest)) + 1
    let run := (x :: y :: rest).take size
    ((x :: y :: rest).drop size).foldlM
      (fun sorted z => do return sorted.insertIdx (← place before z sorted 0 sorted.length) z)
      (if falls then run.reverse else run)

end

/-! ## Equal items -/

def neighboursDiffer (equal : Value → Value → Except Fault Bool) : List Value → Except Fault Bool
  | x :: y :: rest => do
    if ← equal x y then return false
    neighboursDiffer equal (y :: rest)
  | _ => .ok true

/-- Whether no two of some values are equal, `seen` being the ones before. -/
def allDiffer (equal : Value → Value → Except Fault Bool) (seen : List Value) :
    List Value → Except Fault Bool
  | [] => .ok true
  | x :: xs => do
    if ← seen.anyM (equal · x) then return false
    allDiffer equal (seen ++ [x]) xs

def unique (xs : List Value) : Except Fault Bool :=
  let known l := ((Value.list xs).knots.lookup l).getD (.list xs)
  match sorted (itemBefore known) xs with
  | .ok ys => neighboursDiffer (equalIn known equalRoom) ys
  | .error .unordered => allDiffer (equalIn known equalRoom) [] xs
  | .error (.fault f) => .error f

end PenPlotter.Value
