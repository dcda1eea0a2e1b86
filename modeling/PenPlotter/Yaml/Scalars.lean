import PenPlotter.Text.Hex
import PenPlotter.Text.LetterCase
import PenPlotter.Value.Basic
import PenPlotter.Yaml.Node
/-!
# The values of scalars

What the text of a scalar stands for under each tag. A tag may be written in front of any text, so
each reading may fail.
-/
namespace PenPlotter.Yaml
open Text

/-- The sum of numbers in base sixty, the last one counting least. -/
def baseSixty (parts : List Int) : Int := parts.foldl (fun n d => n * 60 + d) 0

def splitSign : List Code → Bool × List Code
  | .char '-' :: s => (true, s)
  | .char '+' :: s => (false, s)
  | s => (false, s)

def sixties? (s : List Code) : Option (List (List Code)) :=
  if s.contains (.char ':') then some (splitAt (.char ':') s) else none

def readInt (text : List Code) : Except Fault Int := do
  let s := text.filter (· != .char '_')
  if s.isEmpty then throw .emptyNumber
  let (negative, s) := splitSign s
  let n ← match s with
    | [.char '0'] => pure 0
    | .char '0' :: .char 'b' :: digits => Literal.int 2 digits
    | .char '0' :: .char 'x' :: digits => Literal.int 16 digits
    | .char '0' :: _ => Literal.int 8 s
    | [] => throw .emptyNumber
    | s => match sixties? s with
      | some parts => do pure (baseSixty (← parts.mapM (Literal.int 10)))
      | none => Literal.int 10 s
  return if negative then -n else n

/-- The sum of numbers in base sixty, added up from the last one. `unit` is what the last one counts
for. -/
def addSixties (unit : Int) (sum : Double) : List Double → Except Fault Double
  | [] => .ok sum
  | d :: ds => match Double.ofInt? unit with
    | some u => addSixties (unit * 60) (sum.add (d.mul u)) ds
    | none => .error .integerTooLarge

def toDouble (s : List Code) : Except Fault Double :=
  match Literal.double? s with
  | some x => .ok x
  | none => .error (.notDouble (quotedCodes s))

/-- A double. The constant nan is one value; any other nan is a value of its own, told apart by
`payload`. -/
def readFloat (payload : Nat) (text : List Code) : Except Fault Double := do
  let s := lowerCase (text.filter (· != .char '_'))
  if s.isEmpty then throw .emptyNumber
  let (negative, s) := splitSign s
  if s = codes ".inf".toList then return .infinite negative
  if s = codes ".nan".toList then return .nan 0
  let x ← match sixties? s with
    | some parts => do
      addSixties 1 (Double.zero false) (← parts.mapM toDouble).reverse
    | none => toDouble s
  return (if negative then x.negate else x).withPayload payload

def readBool (text : List Code) : Except Fault Bool :=
  let s := lowerCase text
  if (trueWords.map codes).contains s then .ok true
  else if (falseWords.map codes).contains s then .ok false
  else .error (.unknownName (quotedCodes s))

def micros (fraction : List Char) : Nat :=
  let ds := fraction.take 6
  Literal.value 10 (ds ++ List.replicate (6 - ds.length) '0')

def readTimestamp (text : List Code) : Except Fault Value :=
  match chars? text >>= fun s => stamp? (dropFinalBreak s) with
  | none => .error .notATimestamp
  | some t => match t.time with
    | none => match Date.make t.year t.month t.day with
      | .ok d => .ok (.date d)
      | .error e => .error (.calendar e)
    | some (hour, minute, second, fraction, zone) =>
      match Moment.make t.year t.month t.day hour minute second (micros fraction) zone with
      | .ok m => .ok (.moment m)
      | .error e => .error (.calendar e)

def readBinary (text : List Code) : Except Flaw Bytes :=
  let ascii? := (chars? text).filter fun s => s.all fun c => decide (c.toNat < 128)
  match ascii? >>= Base64.decode? with
  | some b => .ok b
  | none => .error (.malformed .values)

def Tag.isReadable : Tag → Bool
  | .null | .bool | .int | .float | .binary | .timestamp | .str => true
  | _ => false

def readScalar (tag : Tag) (payload : Nat) (text : List Code) : Except Flaw Value :=
  match tag with
  | .null => .ok .null
  | .bool => (readBool text).mapError .fault |>.map .bool
  | .int => (readInt text).mapError .fault |>.map .int
  | .float => (readFloat payload text).mapError .fault |>.map .double
  | .binary => (readBinary text).map .bytes
  | .timestamp => (readTimestamp text).mapError .fault
  | .str => .ok (Value.ofCodes text)
  | _ => .error (.malformed .values)

end PenPlotter.Yaml
