import PenPlotter.Value.Basic
import PenPlotter.Number.Literal
/-!
# How values are shown

`Value.shown` is the notation of messages and tells strings from names and numbers; `Value.text` is
the value as plain text. Both fail on an integer with too many digits, and on values within each other
beyond the interpreter's limit on nested calls.
-/
namespace PenPlotter
open Text

def writeInt (i : Int) : Except Fault (List Char) :=
  if Decimal.writable i then .ok (Decimal.intText i) else .error .tooManyDigits

namespace Value

def commaList (parts : List (List Char)) : List Char :=
  [',', ' '].intercalate parts

/-- How many values within each other can be shown. It is what callers leave of the thousand nested calls
that the interpreter allows; the exact number depends on how deep the caller stands. -/
def showRoom : Nat := 950

def shownBy (part : Value → Except Fault (List Char)) : Value → Except Fault (List Char)
  | .null => .ok "None".toList
  | .bool b => .ok (if b then "True" else "False").toList
  | .int i => writeInt i
  | .double x => .ok x.general
  | .str s => .ok (quoted s.toList)
  | .codes s => .ok (quotedCodes s)
  | .bytes b => .ok (quotedBytes b)
  | .date d => .ok d.shown
  | .moment m => .ok m.shown
  | .list xs => do return '[' :: commaList (← xs.mapM part) ++ [']']
  | .tuple xs => do
    let parts ← xs.mapM part
    return '(' :: commaList parts ++ (if parts.length = 1 then [','] else []) ++ [')']
  | .set xs => do
    if xs.isEmpty then return "set()".toList
    return '{' :: commaList (← xs.mapM part) ++ ['}']
  | .map es => do
    let parts ← es.mapM fun e => do
      let key ← part e.1
      return key ++ ':' :: ' ' :: (← part e.2)
    return '{' :: commaList parts ++ ['}']
  | .knot _ v => shownBy part v
  | .back _ k => .ok k.ellipsis

/-- A value in the notation of messages, where `room` values fit within each other. -/
def shownIn : (room : Nat) → Value → Except Fault (List Char)
  | 0, _ => .error (.tooDeep " while getting the repr of an object")
  | room + 1, v => shownBy (shownIn room) v

def shown (v : Value) : Except Fault (List Char) := shownIn showRoom v

/-- The code points of a value as plain text: a string is itself. -/
def textCodes : Value → Except Fault (List Code)
  | .str s => .ok (Text.codes s.toList)
  | .codes s => .ok s
  | .date d => .ok (Text.codes d.text)
  | .moment m => .ok (Text.codes m.text)
  | v => do return Text.codes (← v.shown)

def text (v : Value) : Except Fault (List Char) := do return escapeHalves (← v.textCodes)

end Value

end PenPlotter
