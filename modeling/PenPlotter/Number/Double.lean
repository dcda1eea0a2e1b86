/-!
# Double-precision numbers

A finite double is a sign, a mantissa and a power of two in the one canonical form that the 64-bit
format admits, so equal finite numbers of one sign are equal terms. `Double.ofRatio` takes an exact
ratio to the nearest double, a half going to the even mantissa; arithmetic and the reading of
decimals are exact computations followed by that one rounding.
-/
namespace PenPlotter

def twoTo (n : Nat) : Nat := Nat.pow 2 n

def tenTo (n : Nat) : Nat := Nat.pow 10 n

namespace Double

/-- The mantissas and exponents of the format: 53 bits, the leading one set unless the exponent
is the least. -/
def Canonical (m : Nat) (e : Int) : Prop :=
  m < twoTo 53 ∧ -1074 ≤ e ∧ e ≤ 971 ∧ (twoTo 52 ≤ m ∨ e = -1074)

instance (m : Nat) (e : Int) : Decidable (Canonical m e) := by
  unfold Canonical; infer_instance

theorem canonical_zero : Canonical 0 (-1074) := by
  refine ⟨by decide, by decide, by decide, Or.inr rfl⟩

end Double

/-- A double. Two quiet results that are no number are told apart by their payload, as the format
does; neither equals any number, itself included, where numbers are compared. -/
inductive Double where
  | finite (negative : Bool) (mantissa : Nat) (exponent : Int)
      (canonical : Double.Canonical mantissa exponent)
  | infinite (negative : Bool)
  | nan (payload : Nat)
  deriving DecidableEq

namespace Double

def zero (negative : Bool) : Double := .finite negative 0 (-1074) canonical_zero

instance : Inhabited Double := ⟨zero false⟩

def isFinite : Double → Bool
  | .finite .. => true
  | _ => false

def withPayload (payload : Nat) : Double → Double
  | .nan _ => .nan payload
  | x => x

def negate : Double → Double
  | .finite s m e h => .finite (!s) m e h
  | .infinite s => .infinite (!s)
  | .nan p => .nan p

def roundHalfEven (num den : Nat) : Nat :=
  let q := num / den
  let r := num % den
  if 2 * r < den then q
  else if den < 2 * r then q + 1
  else if q % 2 = 0 then q else q + 1

/-- `m * 2 ^ e`; what does not fit the format is beyond its largest number. -/
def ofParts (negative : Bool) (m : Nat) (e : Int) : Double :=
  if h : Canonical m e then .finite negative m e h else .infinite negative

/-- The greatest power of two not above `num / den`, as an exponent. -/
def floorLog (num den : Nat) : Int :=
  let k : Int := (num.log2 : Int) - den.log2
  if den * twoTo k.toNat ≤ num * twoTo (-k).toNat then k else k - 1

/-- The double nearest to `num / den`. -/
def ofRatio (negative : Bool) (num den : Nat) : Double :=
  if num = 0 then zero negative
  else
    let e := max (floorLog num den - 52) (-1074)
    let m := roundHalfEven (num * twoTo (-e).toNat) (den * twoTo e.toNat)
    if m = twoTo 53 then ofParts negative (twoTo 52) (e + 1) else ofParts negative m e

def ofScaled (negative : Bool) (m : Nat) (e : Int) : Double :=
  ofRatio negative (m * twoTo e.toNat) (twoTo (-e).toNat)

/-- The double nearest to `digits * 10 ^ exponent`. Exponents that lie far outside the format are
settled before any power is formed. -/
def ofDecimal (negative : Bool) (digits : Nat) (exponent : Int) : Double :=
  if digits = 0 then zero negative
  else if 310 ≤ exponent then .infinite negative
  else if 31 * (digits.log2 + 1 : Int) + 100 * exponent < -33000 then zero negative
  else ofRatio negative (digits * tenTo exponent.toNat) (tenTo (-exponent).toNat)

/-- The double nearest to an integer, unless the integer is beyond the largest double. -/
def ofInt? (i : Int) : Option Double :=
  match ofRatio (decide (i < 0)) i.natAbs 1 with
  | .infinite _ => none
  | x => some x

/-- The value of a finite double in units of the least positive double. -/
def units : Double → Option Int
  | .finite s m e _ =>
    let n : Int := (m * twoTo (e + 1074).toNat : Nat)
    some (if s then -n else n)
  | _ => none

def truncate? : Double → Option Int
  | .finite s m e _ =>
    let n : Int := (m * twoTo e.toNat / twoTo (-e).toNat : Nat)
    some (if s then -n else n)
  | _ => none

def isIntegral : Double → Bool
  | .finite _ m e _ => m * twoTo e.toNat % twoTo (-e).toNat == 0
  | _ => false

/-- How a double compares with an integer; a nan does not. -/
def compareInt (x : Double) (i : Int) : Option Ordering :=
  match x with
  | .finite .. => x.units.map fun n => compare n (i * (twoTo 1074 : Nat))
  | .infinite s => some (if s then .lt else .gt)
  | .nan _ => none

/-- Equality of numbers: the two zeros are one, and a nan equals nothing. -/
def numEq (x y : Double) : Bool :=
  match x, y with
  | .finite .., .finite .. => x.units == y.units
  | .infinite s, .infinite t => s == t
  | _, _ => false

def numLt (x y : Double) : Bool :=
  match x, y with
  | .nan _, _ | _, .nan _ => false
  | .infinite s, .infinite t => s && !t
  | .infinite s, _ => s
  | _, .infinite t => !t
  | _, _ => match x.units, y.units with
    | some a, some b => decide (a < b)
    | _, _ => false

def mul : Double → Double → Double
  | .nan p, _ | _, .nan p => .nan p
  | .infinite s, .infinite t => .infinite (s != t)
  | .infinite s, .finite t m _ _ | .finite t m _ _, .infinite s =>
    if m = 0 then .nan 0 else .infinite (s != t)
  | .finite s m e _, .finite t n f _ => ofScaled (s != t) (m * n) (e + f)

def add (x y : Double) : Double :=
  match x, y with
  | .nan p, _ | _, .nan p => .nan p
  | .infinite s, .infinite t => if s = t then .infinite s else .nan 0
  | .infinite s, _ | _, .infinite s => .infinite s
  | .finite s .., .finite t .. =>
    let sum := x.units.getD 0 + y.units.getD 0
    if sum = 0 then zero (s && t)
    else ofScaled (decide (sum < 0)) sum.natAbs (-1074)

end Double

end PenPlotter
