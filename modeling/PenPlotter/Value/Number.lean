import PenPlotter.Value.Text
/-!
# Values as sequences and numbers

What a caller's value gives when it is walked through, taken apart into a pair, read as bytes or read as a
number, and the text of a number in the plotter's stream. Text counts as the number that it holds.
-/
namespace PenPlotter
open Text

namespace Value

/-! ## Sequences -/

/-- The parts of a value that can be walked through: a text's characters, a mapping's keys. -/
def walk : Value → Except Fault (List Value)
  | .list xs => .ok (items xs)
  | .tuple xs => .ok (xs.map (detached (.tuple xs)))
  | .set xs => .ok xs
  | .map es => .ok (es.map (·.1))
  | .str s => .ok (s.toList.map fun c => .str (String.singleton c))
  | .codes s => .ok (s.map fun c => ofCodes [c])
  | .bytes b => .ok (b.map fun c => .int c.toNat)
  | v => .error (.notIterable v.kindName)

def pair (v : Value) : Except Fault (Value × Value) :=
  match v.walk with
  | .error _ => .error (.notAPair v.kindName)
  | .ok [x, y] => .ok (x, y)
  | .ok [] => .error (.pairTooShort 0)
  | .ok [_] => .error (.pairTooShort 1)
  | .ok _ => .error .pairTooLong

def toByte : Value → Except Fault UInt8
  | .int i => if 0 ≤ i ∧ i < 256 then .ok (UInt8.ofNat i.toNat) else .error .byteRange
  | .bool b => .ok (UInt8.ofNat b.toNat)
  | v => .error (.notAnIndex v.kindName)

def toBytes : Value → Except Fault Bytes
  | .bytes b => .ok b
  | .str _ | .codes _ => .error .textForBytes
  | v => match v.walk with
    | .ok xs => xs.mapM toByte
    | .error _ => .error (.notBytes v.kindName)

/-- The bytes of a field that takes a byte string: a lone integer is refused by name. -/
def byteField : Value → Except Fault Bytes
  | .int i => do throw (.integerForBytes (← writeInt i))
  | .bool b => do throw (.integerForBytes (← (Value.bool b).shown))
  | v => v.toBytes

/-! ## Numbers -/

/-- A double as the value of a number or of text that holds one. -/
def toDouble : Value → Except Fault Double
  | .bool b => .ok (Double.ofRatio false b.toNat 1)
  | .int i => match Double.ofInt? i with
    | some x => .ok x
    | none => .error .integerTooLarge
  | .double x => .ok x
  | .str s => match Literal.double? (Text.codes s.toList) with
    | some x => .ok x
    | none => .error (.notDouble (quoted s.toList))
  | .codes s => .error (.notDouble (quotedCodes s))
  | .bytes b =>
    match (if b.all (· < 128) then Literal.double? (b.map fun c => .char (Char.ofNat c.toNat))
      else none) with
    | some x => .ok x
    | none => .error (.notDouble (quotedBytes b))
  | v => .error (.notNumber v.kindName)

def toInt : Value → Except Fault Int
  | .bool b => .ok b.toInt
  | .int i => .ok i
  | .double x => match x with
    | .nan _ => .error .nanToInteger
    | .infinite _ => .error .infiniteToInteger
    | x => .ok (x.truncate?.getD 0)
  | v => .error (.notNumber v.kindName)

/-- A number in its least decimal form: an integral number without a fraction, any other with the
shortest digits that read back, and never an exponent. -/
def numberText : Value → Except Fault (List Char)
  | .bool b => writeInt b.toInt
  | .int i => writeInt i
  | v => do
    let x ← v.toDouble
    match x.positional? with
    | some s => return s
    | none => throw (.notFinite (← v.shown))

end Value

end PenPlotter
