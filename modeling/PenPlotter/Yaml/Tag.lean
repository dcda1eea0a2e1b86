import PenPlotter.Number.Literal
import PenPlotter.Text.Code
/-!
# Tags

The tags that a document's nodes may have, and the tag that a plain scalar gets from its text. A
line break at the end of the text is overlooked.
-/
namespace PenPlotter.Yaml
open Text

inductive Tag where
  | null
  | bool
  | int
  | float
  | binary
  | timestamp
  | str
  | seq
  | map
  | omap
  | pairs
  | set
  | merge
  | value
  /-- A tag that no value has. -/
  | other
  deriving DecidableEq, Repr

namespace Tag

def named : List (String × Tag) :=
  [("null", .null), ("bool", .bool), ("int", .int), ("float", .float), ("binary", .binary),
    ("timestamp", .timestamp), ("str", .str), ("seq", .seq), ("map", .map), ("omap", .omap),
    ("pairs", .pairs), ("set", .set), ("merge", .merge), ("value", .value)]

def ofText (s : List Char) : Tag :=
  match named.find? fun t => ("tag:yaml.org,2002:" ++ t.1).toList == s with
  | some t => t.2
  | none => .other

end Tag

def isDigitOrBar (c : Char) : Bool := c.isDigit || c == '_'

def isNumeral : List Char → Bool
  | c :: cs => c.isDigit && cs.all isDigitOrBar
  | [] => false

def isBelowSixty : List Char → Bool
  | [a] => a.isDigit
  | [a, b] => a.isDigit && decide (a < '6') && b.isDigit
  | _ => false

def dropSign (s : List Char) : List Char := (Literal.splitSign s).2

def isOctalOrBar (c : Char) : Bool := Literal.isDigit 8 c || c == '_'
def isBinaryOrBar (c : Char) : Bool := c == '0' || c == '1' || c == '_'
def isHexOrBar (c : Char) : Bool := Literal.isDigit 16 c || c == '_'

/-- An integer: binary, octal, decimal, hexadecimal or in base sixty. -/
def isInteger (s : List Char) : Bool :=
  match dropSign s with
  | ['0'] => true
  | '0' :: 'b' :: digits => !digits.isEmpty && digits.all isBinaryOrBar
  | '0' :: 'x' :: digits => !digits.isEmpty && digits.all isHexOrBar
  | '0' :: digits => digits.all isOctalOrBar
  | s => match splitAt ':' s with
    | whole :: parts => isNumeral whole && parts.all isBelowSixty
    | [] => false

def isExponent : List Char → Bool
  | e :: sign :: digits =>
    (e == 'e' || e == 'E') && (sign == '-' || sign == '+') && !digits.isEmpty &&
      digits.all Char.isDigit
  | _ => false

/-- What may follow a point: digits, and an exponent if one is allowed. -/
def isFraction (exponent : Bool) (s : List Char) : Bool :=
  let rest := s.dropWhile isDigitOrBar
  rest.isEmpty || (exponent && isExponent rest)

def nanWords : List (List Char) := [".nan", ".NaN", ".NAN"].map String.toList

def infinityWords : List (List Char) := [".inf", ".Inf", ".INF"].map String.toList

/-- A number with a point, in decimal or in base sixty, or infinity or nan. -/
def isFloat (s : List Char) : Bool :=
  let unsigned := dropSign s
  if nanWords.contains s then true
  else if infinityWords.contains unsigned then true
  else match s with
    | '.' :: places => places.head?.any Char.isDigit && isFraction true places
    | _ =>
      match splitAt ':' (unsigned.takeWhile (· != '.')), unsigned.dropWhile (· != '.') with
      | [whole], '.' :: places => isNumeral whole && isFraction true places
      | whole :: parts, '.' :: places =>
        isNumeral whole && parts.all isBelowSixty && isFraction false places
      | _, _ => false

/-! ## Timestamps -/

/-- A point in time as it is written: the time of day with the digits of its fraction, and the
offset in minutes. -/
structure Stamp where
  year : Nat
  month : Nat
  day : Nat
  time : Option (Nat × Nat × Nat × List Char × Option Int)

def digits? (least most : Nat) (s : List Char) : Option (Nat × List Char) :=
  let ds := (s.take most).takeWhile Char.isDigit
  if ds.length < least then none else some (Literal.value 10 ds, s.drop ds.length)

def after? (c : Char) : List Char → Option (List Char)
  | x :: rest => if x = c then some rest else none
  | [] => none

/-- An offset at the end of a timestamp, with the blanks in front of it. -/
def zone? (s : List Char) : Option (Option Int) :=
  if s.isEmpty then some none
  else match s.dropWhile fun c => c == ' ' || c == '\t' with
    | ['Z'] => some (some 0)
    | sign :: rest => do
      if sign != '-' && sign != '+' then none
      let (hours, rest) ← digits? 1 2 rest
      let (minutes, rest) ← if rest.isEmpty then some (0, rest) else after? ':' rest >>= digits? 2 2
      if !rest.isEmpty then none
      let total : Int := hours * 60 + minutes
      return some (if sign == '-' then -total else total)
    | [] => none

def timeMark? : List Char → Option (List Char)
  | c :: rest =>
    if c == 'T' || c == 't' then some rest
    else if c == ' ' || c == '\t' then some (rest.dropWhile fun c => c == ' ' || c == '\t')
    else none
  | [] => none

def stamp? (s : List Char) : Option Stamp := do
  let (year, s) ← digits? 4 4 s
  let (month, s) ← after? '-' s >>= digits? 1 2
  let (day, s) ← after? '-' s >>= digits? 1 2
  if s.isEmpty then return { year, month, day, time := none }
  let s ← timeMark? s
  let (hour, s) ← digits? 1 2 s
  let (minute, s) ← after? ':' s >>= digits? 2 2
  let (second, s) ← after? ':' s >>= digits? 2 2
  let (fraction, s) := match s with
    | '.' :: rest => (rest.takeWhile Char.isDigit, rest.dropWhile Char.isDigit)
    | s => ([], s)
  let zone ← zone? s
  return { year, month, day, time := some (hour, minute, second, fraction, zone) }

/-- A timestamp that needs no tag. A date alone has all its digits. -/
def isTimestamp (s : List Char) : Bool :=
  match stamp? s with
  | some t => t.time.isSome || s.length == 10
  | none => false

/-! ## The tag of a text -/

def trueWords : List (List Char) :=
  ["yes", "Yes", "YES", "true", "True", "TRUE", "on", "On", "ON"].map String.toList

def falseWords : List (List Char) :=
  ["no", "No", "NO", "false", "False", "FALSE", "off", "Off", "OFF"].map String.toList

def nullWords : List (List Char) := ["~", "null", "Null", "NULL"].map String.toList

def dropFinalBreak (s : List Char) : List Char :=
  if s.getLast? = some '\n' then s.dropLast else s

def plainTag (text : List Char) : Tag :=
  let s := dropFinalBreak text
  if text.isEmpty then .null
  else if trueWords.contains s || falseWords.contains s then .bool
  else if isFloat s then .float
  else if isInteger s then .int
  else if s = ['<', '<'] then .merge
  else if nullWords.contains s then .null
  else if isTimestamp s then .timestamp
  else if s = ['='] then .value
  else if s = ['!'] ∨ s = ['&'] ∨ s = ['*'] then .other
  else .str

end PenPlotter.Yaml
