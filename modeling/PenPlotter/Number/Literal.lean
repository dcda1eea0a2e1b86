import PenPlotter.Fault
import PenPlotter.Number.Notation
import PenPlotter.Text.Code
/-!
# Numbers read from text

Integers in a given base and doubles in decimal. Blanks may stand around a number, digits may be of any
script, and single underscores may stand between digits. The digits of a script are ten consecutive code
points, so the table holds the zero of each.
-/
namespace PenPlotter.Text

/-! ## Digits and blanks -/

/-- The zero of each script of Unicode 14 that has decimal digits. -/
def decimalZeros : List Nat := [
  0x30, 0x660, 0x6f0, 0x7c0, 0x966, 0x9e6, 0xa66, 0xae6,
  0xb66, 0xbe6, 0xc66, 0xce6, 0xd66, 0xde6, 0xe50, 0xed0,
  0xf20, 0x1040, 0x1090, 0x17e0, 0x1810, 0x1946, 0x19d0, 0x1a80,
  0x1a90, 0x1b50, 0x1bb0, 0x1c40, 0x1c50, 0xa620, 0xa8d0, 0xa900,
  0xa9d0, 0xa9f0, 0xaa50, 0xabf0, 0xff10, 0x104a0, 0x10d30, 0x11066,
  0x110f0, 0x11136, 0x111d0, 0x112f0, 0x11450, 0x114d0, 0x11650, 0x116c0,
  0x11730, 0x118e0, 0x11950, 0x11c50, 0x11d50, 0x11da0, 0x16a60, 0x16ac0,
  0x16b50, 0x1d7ce, 0x1d7d8, 0x1d7e2, 0x1d7ec, 0x1d7f6, 0x1e140, 0x1e2f0,
  0x1e950, 0x1fbf0]

def digitValue? (c : Char) : Option Nat :=
  (decimalZeros.find? fun z => decide (z ≤ c.toNat) && decide (c.toNat < z + 10)).map (c.toNat - ·)

def isBlank (c : Char) : Bool :=
  let n := c.toNat
  (9 ≤ n && n ≤ 13) || n == 0x20 || n == 0x85 || n == 0xa0 || n == 0x1680 ||
    (0x2000 ≤ n && n ≤ 0x200a) || n == 0x2028 || n == 0x2029 || n == 0x202f || n == 0x205f ||
    n == 0x3000

def trim (s : List Char) : List Char :=
  ((s.dropWhile isBlank).reverse.dropWhile isBlank).reverse

/-- A character of a number in ASCII. Blanks become spaces and digits of any script ASCII digits;
other characters beyond ASCII, which no number holds, become question marks. -/
def asciiChar (c : Char) : Char :=
  if c.toNat < 128 then c
  else if isBlank c then ' '
  else match digitValue? c with
    | some d => Char.ofNat ('0'.toNat + d)
    | none => '?'

def asciiNumeral (s : List Code) : List Char :=
  s.map fun
    | .char c => asciiChar c
    | .half _ => '?'

end PenPlotter.Text

namespace PenPlotter.Literal
open Text

/-- The value of an ASCII digit or letter, letters counting on from ten. -/
def digit? (c : Char) : Option Nat :=
  let n := c.toNat
  if 48 ≤ n ∧ n ≤ 57 then some (n - 48)
  else if 97 ≤ n ∧ n ≤ 122 then some (n - 87)
  else if 65 ≤ n ∧ n ≤ 90 then some (n - 55)
  else none

def isDigit (base : Nat) (c : Char) : Bool :=
  match digit? c with
  | some d => decide (d < base)
  | none => false

def splitSign : List Char → Bool × List Char
  | '-' :: s => (true, s)
  | '+' :: s => (false, s)
  | s => (false, s)

/-- The number that digits of a base stand for. Other characters count nothing. -/
def value (base : Nat) (s : List Char) : Nat :=
  s.foldl (fun n c => match digit? c with | some d => n * base + d | none => n) 0

/-- Drops the mark of base 2, 8 or 16, with one underscore behind it. -/
def dropBaseMark (base : Nat) (s : List Char) : List Char :=
  match s with
  | '0' :: c :: rest =>
    if (base = 16 ∧ (c = 'x' ∨ c = 'X')) ∨ (base = 8 ∧ (c = 'o' ∨ c = 'O')) ∨
        (base = 2 ∧ (c = 'b' ∨ c = 'B')) then
      match rest with
      | '_' :: r => r
      | r => r
    else s
  | _ => s

/-- Whether each underscore stands between two other characters of the text. -/
def separatorsFit : List Char → Bool
  | '_' :: _ => false
  | s => fits s
where
  fits : List Char → Bool
    | [] => true
    | ['_'] => false
    | '_' :: '_' :: _ => false
    | _ :: s => fits s

/-- Reads an integer. Only decimal text is limited in length. -/
def int (base : Nat) (text : List Code) : Except Fault Int :=
  let bad := Fault.notInteger base ((quotedCodes text).take 200)
  let (negative, s) := splitSign (trim (asciiNumeral text))
  let s := dropBaseMark base s
  let inNumber := fun c => c == '_' || isDigit base c
  let digits := s.takeWhile inNumber
  let count := digits.countP (· != '_')
  if !separatorsFit digits then .error bad
  else if base = 10 ∧ digitLimit < count then .error (.tooManyDigitsRead count)
  else if count = 0 ∨ !(s.dropWhile inNumber).isEmpty then .error bad
  else
    let n : Int := value base digits
    .ok (if negative then -n else n)

/-- Whether each underscore stands between two digits. -/
def underscoresFit (previous : Char) : List Char → Bool
  | [] => previous != '_'
  | c :: s =>
    (if c = '_' then isDigit 10 previous else previous != '_' || isDigit 10 c) &&
      underscoresFit c s

def exponent? : List Char → Option Int
  | [] => some 0
  | c :: s =>
    if c = 'e' ∨ c = 'E' then
      let (negative, digits) := splitSign s
      if digits.isEmpty ∨ !digits.all (isDigit 10) then none
      else
        let n : Int := value 10 digits
        some (if negative then -n else n)
    else none

/-- Reads an unsigned decimal: digits with at most one point among them, and an exponent. -/
def decimal? (negative : Bool) (s : List Char) : Option Double :=
  let whole := s.takeWhile (isDigit 10)
  let rest := s.dropWhile (isDigit 10)
  let (places, rest) := match rest with
    | '.' :: r => (r.takeWhile (isDigit 10), r.dropWhile (isDigit 10))
    | r => ([], r)
  if whole.isEmpty && places.isEmpty then none
  else (exponent? rest).map fun e =>
    Double.ofDecimal negative (value 10 (whole ++ places)) (e - places.length)

def double? (text : List Code) : Option Double :=
  let s := trim (asciiNumeral text)
  if !underscoresFit ' ' s then none
  else
    let (negative, s) := splitSign (s.filter (· != '_'))
    match s.map Char.toLower with
    | ['i', 'n', 'f'] | ['i', 'n', 'f', 'i', 'n', 'i', 't', 'y'] => some (.infinite negative)
    | ['n', 'a', 'n'] => some (.nan 0)
    | _ => decimal? negative s

end PenPlotter.Literal
