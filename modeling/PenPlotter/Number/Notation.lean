import PenPlotter.Number.Double
/-!
# How numbers are written

Two notations share the shortest digits of a double. The positional one never uses an exponent and
drops the fraction of an integral number; the plotter's stream uses it. The general one keeps `.0`
and turns to an exponent below `10 ^ -4` and from `10 ^ 16`; messages use it.

The shortest digits are the fewest whose decimal reads back as the double, and of those the nearest to it;
an exact tie goes to the even digit. What is returned always reads back, because each candidate is read
before it is taken.
-/
namespace PenPlotter

/-- The number `digits * 10 ^ exponent`. -/
structure Decimal where
  digits : Nat
  exponent : Int
  deriving DecidableEq, Repr

namespace Decimal

def toDouble (d : Decimal) : Double := Double.ofDecimal false d.digits d.exponent

/-- Moves zeros at the end of the digits into the exponent. -/
def strip (digits : Nat) (exponent : Int) : Decimal :=
  if h : digits ≠ 0 ∧ digits % 10 = 0 then
    have : digits / 10 < digits := Nat.div_lt_self (by omega) (by decide)
    strip (digits / 10) (exponent + 1)
  else ⟨digits, exponent⟩
termination_by digits

def size (n : Nat) : Nat :=
  if h : n < 10 then 1
  else
    have : n / 10 < n := Nat.div_lt_self (by omega) (by decide)
    size (n / 10) + 1
termination_by n

/-- The `k` with `10 ^ (k - 1) ≤ num / den < 10 ^ k`, for ratios in the range of doubles. -/
def magnitude (num den : Nat) : Int := size (num * tenTo 400 / den) - 400

/-- The neighbours of `num / den` among the multiples of `10 ^ p`, the nearer first. -/
def neighbours (num den : Nat) (p : Int) : List Nat :=
  let n := num * tenTo (-p).toNat
  let d := den * tenTo p.toNat
  let q := n / d
  let r := n % d
  if 2 * r < d ∨ (2 * r = d ∧ q % 2 = 0) then [q, q + 1] else [q + 1, q]

/-- The nearest decimal with digits down to `10 ^ p` that reads back as `m * 2 ^ e`. -/
def onGrid? (m : Nat) (e p : Int) : Option Decimal :=
  (neighbours (m * twoTo e.toNat) (twoTo (-e).toNat) p).findSome? fun n =>
    if (Decimal.mk n p).toDouble = Double.ofParts false m e then some ⟨n, p⟩ else none

def exact (m : Nat) (e : Int) : Decimal :=
  ⟨m * twoTo e.toNat * Nat.pow 5 (-e).toNat, min e 0⟩

/-- The shortest decimal that reads back as `m * 2 ^ e`. Seventeen digits always do. -/
def shortest (m : Nat) (e : Int) : Decimal :=
  let k := magnitude (m * twoTo e.toNat) (twoTo (-e).toNat)
  let d := ((List.range 17).findSome? fun i : Nat => onGrid? m e (k - (i + 1))).getD (exact m e)
  strip d.digits d.exponent

end Decimal

/-- Decimal text of more digits than this is neither written nor read as an integer. -/
def digitLimit : Nat := 4300

namespace Decimal

def natText (n : Nat) : List Char := Nat.toDigits 10 n

def intText (i : Int) : List Char :=
  if i < 0 then '-' :: natText i.natAbs else natText i.natAbs

def writable (i : Int) : Bool := decide (i.natAbs < tenTo digitLimit)

/-- Digits and exponent in positional notation: zeros up to the point, and a point only where
digits follow it. -/
def positional (d : Decimal) : List Char :=
  let s := natText d.digits
  if 0 ≤ d.exponent then s ++ List.replicate d.exponent.toNat '0'
  else
    let places := (-d.exponent).toNat
    if places < s.length then s.take (s.length - places) ++ '.' :: s.drop (s.length - places)
    else '0' :: '.' :: List.replicate (places - s.length) '0' ++ s

/-- One digit, the others behind a point, and a signed exponent of two digits or more. -/
def scientific (d : Decimal) : List Char :=
  let s := natText d.digits
  let power : Int := s.length - 1 + d.exponent
  let digits := natText power.natAbs
  s.take 1 ++ (if s.length ≤ 1 then [] else '.' :: s.drop 1) ++
    'e' :: (if power < 0 then '-' else '+') ::
    (if digits.length < 2 then '0' :: digits else digits)

def general (d : Decimal) : List Char :=
  let power : Int := (natText d.digits).length - 1 + d.exponent
  if power < -4 ∨ 16 ≤ power then d.scientific
  else if 0 ≤ d.exponent then d.positional ++ ['.', '0']
  else d.positional

end Decimal

namespace Double

def signText (negative : Bool) : List Char := if negative then ['-'] else []

def general : Double → List Char
  | .finite s m e _ =>
    signText s ++ (if m = 0 then ['0', '.', '0'] else (Decimal.shortest m e).general)
  | .infinite s => signText s ++ ['i', 'n', 'f']
  | .nan _ => ['n', 'a', 'n']

/-- The positional notation of a finite double, without a fraction where the number is integral. -/
def positional? (x : Double) : Option (List Char) :=
  match x with
  | .finite s m e _ =>
    if x.isIntegral then x.truncate?.map Decimal.intText
    else some (signText s ++ (Decimal.shortest m e).positional)
  | _ => none

end Double

end PenPlotter
