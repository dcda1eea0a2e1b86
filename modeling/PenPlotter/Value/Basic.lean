import PenPlotter.Calendar
import PenPlotter.Fault
import PenPlotter.Number.Notation
/-!
# Document values

The values that documents and callers hand over: the scalars of a document, lists and mappings in
document order, and what tagged nodes give (bytes, dates, sets, pairs). A container that holds itself
has a label. Where it is a part of another one it stands in a `knot` with its label, and where it
comes again within itself there is a `back` with the label. `Value.items` and `Value.entries` give
the parts of a container as values of their own, in which every reference leads to a container around
it.
-/
namespace PenPlotter
open Text

inductive ContainerKind where
  | list
  | tuple
  | map
  deriving DecidableEq, Repr

namespace ContainerKind

def name : ContainerKind → String
  | .list => "list"
  | .tuple => "tuple"
  | .map => "dict"

def ellipsis : ContainerKind → List Char
  | .list => "[...]".toList
  | .tuple => "(...)".toList
  | .map => "\x7b...\x7d".toList

end ContainerKind

/-- The label of a container: a number, and for the pairs in a list a second one from 1 on. -/
abbrev Label := Nat × Nat

inductive Value where
  | null
  | bool (b : Bool)
  | int (i : Int)
  | double (x : Double)
  | str (s : String)
  /-- A text that halves of surrogate pairs keep from being a string of characters. -/
  | codes (s : List Code)
  | bytes (b : Bytes)
  | date (d : Date)
  | moment (m : Moment)
  | list (items : List Value)
  | tuple (items : List Value)
  | set (items : List Value)
  | map (entries : List (Value × Value))
  /-- A part that holds references to itself or to containers around it. -/
  | knot (label : Label) (container : Value)
  /-- A reference to the container with a label around it. -/
  | back (label : Label) (kind : ContainerKind)
  deriving Inhabited

namespace Value

def ofCodes (s : List Code) : Value :=
  match chars? s with
  | some s => .str (String.ofList s)
  | none => .codes s

def kindName : Value → String
  | .null => "NoneType"
  | .bool _ => "bool"
  | .int _ => "int"
  | .double _ => "float"
  | .str _ | .codes _ => "str"
  | .bytes _ => "bytes"
  | .date _ => "datetime.date"
  | .moment _ => "datetime.datetime"
  | .list _ => "list"
  | .tuple _ => "tuple"
  | .set _ => "set"
  | .map _ => "dict"
  | .knot _ v => v.kindName
  | .back _ k => k.name

/-! ## Parts -/

def containerKind : Value → ContainerKind
  | .map _ => .map
  | .tuple _ => .tuple
  | _ => .list

def mapParts (f : Value → Value) : Value → Value
  | .list xs => .list (xs.map f)
  | .tuple xs => .tuple (xs.map f)
  | .map es => .map (es.map fun e => (e.1, f e.2))
  | v => v

mutual
def knots : Value → List (Label × Value)
  | .knot l v => (l, v) :: knots v
  | .list xs | .tuple xs => knotsOfAll xs
  | .map es => knotsOfEntries es
  | _ => []
def knotsOfAll : List Value → List (Label × Value)
  | [] => []
  | .knot l v :: xs => (l, v) :: (knots v ++ knotsOfAll xs)
  | _ :: xs => knotsOfAll xs
def knotsOfEntries : List (Value × Value) → List (Label × Value)
  | [] => []
  | (_, .knot l v) :: es => (l, v) :: (knots v ++ knotsOfEntries es)
  | _ :: es => knotsOfEntries es
end

/-- A part within the containers of `path`. What is not among them is unfolded, `known` being the
containers by label; so each step down adds another label to the path. -/
def refold (known : Label → Value) : (fuel : Nat) → (path : List Label) → Value → Value
  | 0, _, v => v
  | fuel + 1, path, .back l k =>
    if path.contains l then .back l k
    else .knot l ((known l).mapParts (refold known fuel (l :: path)))
  | fuel + 1, path, .knot l v =>
    if path.contains l then .back l v.containerKind
    else .knot l (v.mapParts (refold known fuel (l :: path)))
  | _ + 1, _, v => v

/-- The container in a knot. Nothing but a container comes out of one. -/
def untied : Value → Value
  | .knot _ (.list xs) => .list xs
  | .knot _ (.tuple xs) => .tuple xs
  | .knot _ (.map es) => .map es
  | v => v

/-- A part of a container as a value of its own. The only label without a knot in the container is its
own one. -/
def detached (whole : Value) : Value → Value
  | .knot l v => tied (.knot l v)
  | .back l k => tied (.back l k)
  | v => v
where
  tied (v : Value) : Value :=
    let known := whole.knots
    (refold (fun l => (known.lookup l).getD whole) (known.length + 2) [] v).untied

def items (xs : List Value) : List Value := xs.map (detached (.list xs))

def entries (es : List (Value × Value)) : List (Value × Value) :=
  es.map fun e => (e.1, detached (.map es) e.2)

/-! ## Equality and keys -/

mutual
/-- Whether two values are one to a container: equal numbers are, whatever their kind, and so is a
nan with itself. What holds itself is never a key, and is not asked for here. -/
def same : Value → Value → Bool
  | .null, .null => true
  | .bool a, .bool b => a == b
  | .bool a, .int b => b == a.toInt
  | .int a, .bool b => a == b.toInt
  | .bool a, .double b => b.compareInt a.toInt == some .eq
  | .double a, .bool b => a.compareInt b.toInt == some .eq
  | .int a, .int b => a == b
  | .int a, .double b => b.compareInt a == some .eq
  | .double a, .int b => a.compareInt b == some .eq
  | .double a, .double b => a == b || a.numEq b
  | .str a, .str b => a == b
  | .codes a, .codes b => a == b
  | .bytes a, .bytes b => a == b
  | .date a, .date b => a == b
  | .moment a, .moment b => a.same b
  | .list a, .list b => sameAll a b
  | .tuple a, .tuple b => sameAll a b
  | .set a, .set b => a.length == b.length && sameWithin a b
  | .map a, .map b => a.length == b.length && sameEntries a b
  | _, _ => false
def sameAll : List Value → List Value → Bool
  | [], [] => true
  | x :: xs, y :: ys => same x y && sameAll xs ys
  | _, _ => false
def sameWithin : List Value → List Value → Bool
  | [], _ => true
  | x :: xs, ys => ys.any (same x) && sameWithin xs ys
def sameEntries : List (Value × Value) → List (Value × Value) → Bool
  | [], _ => true
  | (k, x) :: es, fs => fs.any (fun f => same k f.1 && same x f.2) && sameEntries es fs
end

def isText (name : String) : Value → Bool
  | .str s => s == name
  | _ => false

def lookup? (name : String) (es : List (Value × Value)) : Option Value :=
  (es.find? fun e => e.1.isText name).map (·.2)

/-- The value of a mapping under a text key, as a value of its own. -/
def field? (name : String) (es : List (Value × Value)) : Option Value :=
  (lookup? name es).map (detached (.map es))

/-- The entries of a mapping with one more. A key that is there keeps its place and gets the value. -/
def put (es : List (Value × Value)) (key value : Value) : List (Value × Value) :=
  if es.any fun e => key.same e.1 then
    es.map fun e => if key.same e.1 then (e.1, value) else e
  else es ++ [(key, value)]

def keyFault? : Value → Option Fault
  | .list _ => some (.unhashable "list")
  | .set _ => some (.unhashable "set")
  | .map _ => some (.unhashable "dict")
  | .back _ k => some (.unhashable k.name)
  | _ => none

end Value

end PenPlotter
