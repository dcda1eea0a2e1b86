import PenPlotter.Value.Number
/-!
# Schemas

A schema is a list of rules on one value, in the order in which they are tried. `Kind` sorts values
as schemas do: a double without a fraction is an integer, and a boolean is no number.
-/
namespace PenPlotter
open Text

inductive Kind where
  | object
  | array
  | string
  | number
  | integer
  | null
  deriving DecidableEq, Repr

def Kind.name : Kind → String
  | .object => "object"
  | .array => "array"
  | .string => "string"
  | .number => "number"
  | .integer => "integer"
  | .null => "null"

def Kind.holds : Kind → Value → Bool
  | .object, .map _ | .array, .list _ | .string, .str _ | .string, .codes _ | .null, .null => true
  | .number, .int _ | .number, .double _ | .integer, .int _ => true
  | .integer, .double x => x.isIntegral
  | _, _ => false

structure NameForm where
  text : String
  first : Char → Bool
  later : Char → Bool

/-- Whether a text is a name of the form. A line break at its end is overlooked. -/
def NameForm.accepts (p : NameForm) : List Char → Bool
  | [] => false
  | c :: cs =>
    p.first c && (cs.all p.later || (cs.getLast? == some '\n' && cs.dropLast.all p.later))

inductive Rule where
  | kinds (kinds : List Kind)
  | closed (names : List String)
  | required (names : List String)
  | properties (rules : List (String × List Rule))
  | items (rules : List Rule)
  | anyOf (choices : List (List Rule))
  | enum (choices : List Value)
  | const (choice : Value)
  | minimum (bound : Int)
  | maximum (bound : Int)
  | above (bound : Int)
  | minItems (count : Nat)
  | maxItems (count : Nat)
  | unique
  | minEntries (count : Nat)
  | maxEntries (count : Nat)
  | minLength (count : Nat)
  | form (form : NameForm)

abbrev Schema := List Rule

namespace Value

def holdsBytes (xs : List Value) (b : Bytes) : Bool :=
  xs.length == b.length && (xs.zip b).all fun p =>
    match p.1 with
    | .bool _ => false
    | x => x.same (.int p.2.toNat)

/-- Equality as schemas see it, of values that are no containers: a boolean equals only booleans. -/
def equal : Value → Value → Bool
  | .bool a, .bool b => a == b
  | .bool _, _ | _, .bool _ => false
  | a, b => a.same b

def textLength? : Value → Option Nat
  | .str s => some s.length
  | .codes s => some s.length
  | _ => none

/-- How a number compares to an integer. A nan compares to none, and so does what is no number. -/
def compareTo (bound : Int) : Value → Option Ordering
  | .int i => some (compare i bound)
  | .double x => x.compareInt bound
  | _ => none

end Value

end PenPlotter
