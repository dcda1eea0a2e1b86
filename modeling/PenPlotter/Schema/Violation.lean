import PenPlotter.Failure
import PenPlotter.Schema.Unique
import PenPlotter.Text.Code
/-!
# Violations

Checking a value against a schema. Rules are tried in their order, and the first broken one decides.
A breach has its message and the way to it. Where the message cannot be written, or the items of a list
cannot be compared, a fault stands in its place. `Schema.breach?` looks for the first breach of some
sort, since a choice is judged by whether its branches are broken and whether they hold a fault.
-/
namespace PenPlotter
open Text

/-- The outcome of breaking a rule: a violation, or the fault that keeps it from being told. -/
abbrev Breach := Except Fault Violation

namespace Breach

def message (text : Except Fault (List Char)) : Breach := do
  return { path := [], message := ← text }

def about (v : Value) (words : String) : Breach :=
  message do return (← v.shown) ++ words.toList

def within (step : String) (b : Breach) : Breach := do
  let v ← b
  return { v with path := step :: v.path }

end Breach

def unexpectedKeys (keys : List Value) : Except Fault (List Char) := do
  let named ← keys.mapM fun k => do return ((← k.textCodes).map Code.toNat, k)
  let sorted := named.mergeSort fun a b => inOrder a.1 b.1
  let shown ← sorted.mapM fun k => k.2.shown
  let verb := if keys.length = 1 then "was" else "were"
  return "Additional properties are not allowed (".toList ++ Value.commaList shown ++
    ' ' :: verb.toList ++ " unexpected)".toList

namespace Rule

def ownBreaches (v : Value) : Rule → List Breach
  | .kinds ks =>
    if ks.any (·.holds v) then []
    else [.about v (" is not of type " ++ ", ".intercalate (ks.map fun k => s!"'{k.name}'"))]
  | .closed names => match v with
    | .map es =>
      let extra := (es.map (·.1)).filter fun k =>
        match k with
        | .str s => !names.contains s
        | _ => true
      if extra.isEmpty then [] else [.message (unexpectedKeys extra)]
    | _ => []
  | .required names => match v with
    | .map es => (names.filter fun n => (Value.lookup? n es).isNone).map fun n =>
      .message (.ok (quoted n.toList ++ " is a required property".toList))
    | _ => []
  | .enum choices =>
    if choices.any v.equal then []
    else [.message do
      return (← v.shown) ++ " is not one of ".toList ++ (← (Value.list choices).shown)]
  | .const choice =>
    if v.equal choice then []
    else [.message do return (← choice.shown) ++ " was expected".toList]
  | .minimum n =>
    if Kind.number.holds v && v.compareTo n == some .lt
    then [.about v s!" is less than the minimum of {n}"] else []
  | .maximum n =>
    if Kind.number.holds v && v.compareTo n == some .gt
    then [.about v s!" is greater than the maximum of {n}"] else []
  | .above n =>
    if Kind.number.holds v && (v.compareTo n == some .lt || v.compareTo n == some .eq)
    then [.about v s!" is less than or equal to the minimum of {n}"] else []
  | .minItems n => match v with
    | .list xs =>
      if xs.length < n then [.about v (if n = 1 then " should be non-empty" else " is too short")]
      else []
    | _ => []
  | .maxItems n => match v with
    | .list xs =>
      if n < xs.length
      then [.about v (if n = 0 then " is expected to be empty" else " is too long")] else []
    | _ => []
  | .unique => match v with
    | .list xs => match Value.unique xs with
      | .ok true => []
      | .ok false => [.about v " has non-unique elements"]
      | .error f => [.error f]
    | _ => []
  | .minEntries n => match v with
    | .map es =>
      if es.length < n
      then [.about v (if n = 1 then " should be non-empty" else " does not have enough properties")]
      else []
    | _ => []
  | .maxEntries n => match v with
    | .map es =>
      if n < es.length
      then [.about v (if n = 0 then " is expected to be empty" else " has too many properties")]
      else []
    | _ => []
  | .minLength n =>
    if v.textLength?.any (· < n)
    then [.about v (if n = 1 then " should be non-empty" else " is too short")] else []
  | .form f => match v with
    | .str s =>
      if f.accepts s.toList then []
      else [.about v (" does not match '" ++ f.text ++ "'")]
    | .codes _ => [.about v (" does not match '" ++ f.text ++ "'")]
    | _ => []
  | .properties _ | .items _ | .anyOf _ => []

end Rule

namespace Schema

def noChoice (v : Value) : Breach := .about v " is not valid under any of the given schemas"

mutual
/-- The first breach of a rule that is wanted. -/
def ruleBreach? (wanted : Breach → Bool) : Rule → Value → Option Breach
  | .properties ps, v => match v with
    | .map es => propertyBreach? wanted ps es
    | _ => none
  | .items rules, v => match v with
    | .list xs => xs.zipIdx.findSome? fun (x, i) =>
      (breach? wanted rules (Value.detached (.list xs) x)).map (Breach.within (toString i))
    | _ => none
  | .anyOf choices, v => (choiceBreach? choices v).filter wanted
  | rule, v => (rule.ownBreaches v).find? wanted
def breach? (wanted : Breach → Bool) : List Rule → Value → Option Breach
  | [], _ => none
  | rule :: rules, v => match ruleBreach? wanted rule v with
    | some b => some b
    | none => breach? wanted rules v
def propertyBreach? (wanted : Breach → Bool) :
    List (String × List Rule) → List (Value × Value) → Option Breach
  | [], _ => none
  | (name, rules) :: rest, es =>
    match (Value.field? name es).bind (breach? wanted rules) with
    | some b => some (b.within name)
    | none => propertyBreach? wanted rest es
/-- The breach of a choice. A fault in a branch is met before the choice is judged. -/
def choiceBreach? : List (List Rule) → Value → Option Breach
  | [], v => some (noChoice v)
  | rules :: rest, v =>
    match breach? (fun _ => true) rules v with
    | none => none
    | some _ => match breach? (fun b => b matches .error _) rules v with
      | some fault => some fault
      | none => choiceBreach? rest v
end

def firstBreach? (s : Schema) (v : Value) : Option Breach := breach? (fun _ => true) s v

def accepts (s : Schema) (v : Value) : Bool := (firstBreach? s v).isNone

def check (s : Schema) (role : DocumentRole) (source : String) (v : Value) : Except Failure Unit :=
  match firstBreach? s v with
  | none => .ok ()
  | some (.ok violation) => .error (.document ⟨role, source, .invalid violation⟩)
  | some (.error f) => .error (.fault f)

end Schema

end PenPlotter
