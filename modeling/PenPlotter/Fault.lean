import PenPlotter.Calendar
import PenPlotter.Number.Double
import PenPlotter.Text.Quoted
import PenPlotter.Text.Utf8
/-!
# Faults of single values

Why one value cannot be read, converted or written. A fault carries the data that its message
shows; `Fault.kind` sorts the faults by what is wrong with the value.
-/
namespace PenPlotter
open Text

inductive Fault where
  /-- An integer with more digits than are written. -/
  | tooManyDigits
  /-- A decimal text with more digits than are read. -/
  | tooManyDigitsRead (count : Nat)
  | notFinite (shown : List Char)
  | notInteger (base : Nat) (shown : List Char)
  | notDouble (shown : List Char)
  | notNumber (kind : String)
  | integerTooLarge
  | infiniteToInteger
  | nanToInteger
  | unknownName (shown : List Char)
  | unknownBits (bits : Int)
  | notATimestamp
  | emptyNumber
  | calendar (flaw : CalendarFlaw)
  | unhashable (kind : String)
  | notAPair (kind : String)
  | pairTooShort (size : Nat)
  | pairTooLong
  | codePointTooLarge
  | codePointTooWide
  | undecodable (failure : Utf8.Failure)
  | notAscii (text : List Char)
  /-- A text with halves of surrogate pairs. -/
  | notUtf8 (text : List Code)
  | byteRange
  | notBytes (kind : String)
  | integerForBytes (shown : List Char)
  | textForBytes
  | notAnIndex (kind : String)
  | notACommand (shown : List Char)
  | notAnInstruction (shown : List Char)
  | notEncodable (kind : String)
  | unsupportedHandshake (shown : List Char)
  | missingField (kind field : String)
  | notIterable (kind : String)
  | notAddable (left right : String)
  | notConcatenable (kind other : String)
  | notConcatenableBytes (other : String)
  | noLength (kind : String)
  | notMatchable (kind : String)
  /-- More calls within each other than the interpreter allows, and what they were for. -/
  | tooDeep (during : String)
  | nulInPath
  deriving DecidableEq, Repr

inductive FaultKind where
  | type
  | value
  | key
  | overflow
  | field
  | index
  | decoding
  | encoding
  | recursion
  deriving DecidableEq, Repr

namespace Fault

def kind : Fault → FaultKind
  | .tooManyDigits | .tooManyDigitsRead _ | .notFinite _ | .notInteger .. | .notDouble _
  | .nanToInteger | .unknownBits _ | .calendar _ | .pairTooShort _ | .pairTooLong
  | .codePointTooLarge | .byteRange | .nulInPath => .value
  | .integerTooLarge | .infiniteToInteger | .codePointTooWide => .overflow
  | .unknownName _ => .key
  | .notATimestamp | .missingField .. => .field
  | .emptyNumber => .index
  | .undecodable _ => .decoding
  | .notAscii _ | .notUtf8 _ => .encoding
  | .tooDeep _ => .recursion
  | _ => .type

/-- Binary digits behind a sign bit, at least `width` of them. -/
def signedBits (n : Int) (width : Nat) : List Char :=
  let size := if n = 0 then 0 else n.natAbs.log2 + 1
  let magnitude := if n < 0 then (twoTo size - 1 - (n.natAbs - 1)) else n.natAbs
  let digits := (List.range (max size width)).reverse.map fun i =>
    if i < size then (if magnitude.testBit i then '1' else '0')
    else if n < 0 then '1' else '0'
  '0' :: 'b' :: (if n < 0 then '1' else '0') :: ' ' :: digits

def utf8Message (f : Utf8.Failure) : List Char :=
  let reason := match f.flaw with
    | .start => "invalid start byte"
    | .continuation => "invalid continuation byte"
    | .ending => "unexpected end of data"
  let place := if f.size = 1
    then "byte 0x".toList ++ hexPadded 2 f.first.toNat ++ " in position ".toList ++
      Nat.toDigits 10 f.position
    else "bytes in position ".toList ++ Nat.toDigits 10 f.position ++
      '-' :: Nat.toDigits 10 (f.position + f.size - 1)
  "'utf-8' codec can't decode ".toList ++ place ++ ": ".toList ++ reason.toList

/-- The message on the first run of code points that an encoding cannot write, and why not. -/
def unencodable (encoding reason : String) (fits : Code → Bool) (text : List Code) : List Char :=
  let start := (text.takeWhile fits).length
  let run := (text.drop start).takeWhile (fun c => !fits c)
  let place := match run with
    | [c] => "character '".toList ++ hexEscape c.toNat ++ "' in position ".toList ++
      Nat.toDigits 10 start
    | _ => "characters in position ".toList ++ Nat.toDigits 10 start ++
      '-' :: Nat.toDigits 10 (start + run.length - 1)
  s!"'{encoding}' codec can't encode ".toList ++ place ++ s!": {reason}".toList

def asciiMessage (text : List Char) : List Char :=
  unencodable "ascii" "ordinal not in range(128)" (fun c => decide (c.toNat < 128)) (codes text)

def utf8EncodeMessage (text : List Code) : List Char :=
  unencodable "utf-8" "surrogates not allowed" (fun c => c.char?.isSome) text

def message : Fault → String
  | .tooManyDigits => "Exceeds the limit (4300 digits) for integer string conversion; " ++
    "use sys.set_int_max_str_digits() to increase the limit"
  | .tooManyDigitsRead n => "Exceeds the limit (4300 digits) for integer string conversion: " ++
    s!"value has {n} digits; use sys.set_int_max_str_digits() to increase the limit"
  | .notFinite s => "Cannot encode non-finite number " ++ String.ofList s
  | .notInteger base s =>
    s!"invalid literal for int() with base {base}: " ++ String.ofList s
  | .notDouble s => "could not convert string to float: " ++ String.ofList s
  | .notNumber k => s!"float() argument must be a string or a real number, not '{k}'"
  | .integerTooLarge => "int too large to convert to float"
  | .infiniteToInteger => "cannot convert float infinity to integer"
  | .nanToInteger => "cannot convert float NaN to integer"
  | .unknownName s => String.ofList s
  | .unknownBits n =>
    let width := max 4 (if n = 0 then 0 else n.natAbs.log2 + 1)
    s!"<flag 'PlotterConfig'> invalid value {n}\n    given " ++
      String.ofList (signedBits n width) ++ "\n  allowed " ++ String.ofList (signedBits 13 width)
  | .notATimestamp => "'NoneType' object has no attribute 'groupdict'"
  | .emptyNumber => "string index out of range"
  | .calendar f => f.message
  | .unhashable k => s!"unhashable type: '{k}'"
  | .notAPair k => s!"cannot unpack non-iterable {k} object"
  | .pairTooShort n => s!"not enough values to unpack (expected 2, got {n})"
  | .pairTooLong => "too many values to unpack (expected 2)"
  | .codePointTooLarge => "chr() arg not in range(0x110000)"
  | .codePointTooWide => "Python int too large to convert to C int"
  | .undecodable f => String.ofList (utf8Message f)
  | .notAscii s => String.ofList (asciiMessage s)
  | .notUtf8 s => String.ofList (utf8EncodeMessage s)
  | .byteRange => "bytes must be in range(0, 256)"
  | .notBytes k => s!"cannot convert '{k}' object to bytes"
  | .integerForBytes s => "expected a byte string or an iterable of ints, got int " ++
    String.ofList s
  | .textForBytes => "string argument without an encoding"
  | .notAnIndex k => s!"'{k}' object cannot be interpreted as an integer"
  | .notACommand s => "Not an HP-GL command: " ++ String.ofList s
  | .notAnInstruction s => "Not a device-control instruction: " ++ String.ofList s
  | .notEncodable k => s!"Cannot encode {k}"
  | .unsupportedHandshake s => "Unsupported handshake configuration " ++ String.ofList s
  | .missingField k a => s!"'{k}' object has no attribute '{a}'"
  | .notIterable k => s!"'{k}' object is not iterable"
  | .notAddable l r => s!"unsupported operand type(s) for +: '{l}' and '{r}'"
  | .notConcatenable k o => s!"can only concatenate {k} (not \"{o}\") to {k}"
  | .notConcatenableBytes o => s!"can't concat {o} to bytes"
  | .noLength k => s!"object of type '{k}' has no len()"
  | .notMatchable k => s!"expected string or bytes-like object, got '{k}'"
  | .tooDeep during => "maximum recursion depth exceeded" ++ during
  | .nulInPath => "embedded null byte"

end Fault

end PenPlotter
