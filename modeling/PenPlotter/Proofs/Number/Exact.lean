import Mathlib.Algebra.Order.Field.Power
import Mathlib.Data.Nat.Cast.Field
import Mathlib.Data.Rat.Cast.Order
import Mathlib.Tactic.FieldSimp
import Mathlib.Tactic.Linarith
import Mathlib.Tactic.Positivity
import Mathlib.Tactic.Ring
import PenPlotter.Number.Double
/-! # The numbers that doubles are

A finite double is a rational number. Comparison with an integer, equality of numbers, truncation and
being integral are told by that number alone.
-/
namespace PenPlotter

@[simp] theorem twoTo_cast (n : ℕ) : ((twoTo n : ℕ) : ℚ) = 2 ^ n := by
  change (((2 ^ n : ℕ)) : ℚ) = 2 ^ n
  push_cast
  rfl

@[simp] theorem tenTo_cast (n : ℕ) : ((tenTo n : ℕ) : ℚ) = 10 ^ n := by
  change (((10 ^ n : ℕ)) : ℚ) = 10 ^ n
  push_cast
  rfl

theorem twoTo_pos (n : ℕ) : 0 < twoTo n := Nat.pow_pos (by decide)

theorem twoTo_le {m n : ℕ} (h : m ≤ n) : twoTo m ≤ twoTo n := Nat.pow_le_pow_right (by decide) h

theorem tenTo_pos (n : ℕ) : 0 < tenTo n := Nat.pow_pos (by decide)

theorem pow_toNat_div (b : ℚ) (e : ℤ) : b ^ e.toNat / b ^ (-e).toNat = b ^ e := by
  rcases le_total 0 e with h | h
  · rw [Int.toNat_of_nonpos (by omega : -e ≤ 0), pow_zero, div_one, ← zpow_natCast,
      Int.toNat_of_nonneg h]
  · rw [Int.toNat_of_nonpos h, pow_zero, one_div, ← zpow_natCast, Int.toNat_of_nonneg (by omega),
      zpow_neg, inv_inv]

/-- The ratio of natural numbers that stands for `m * 2 ^ e`. -/
theorem ratio_eq (m : ℕ) (e : ℤ) :
    ((m * twoTo e.toNat : ℕ) : ℚ) / (twoTo (-e).toNat : ℕ) = m * 2 ^ e := by
  push_cast
  rw [twoTo_cast, twoTo_cast, mul_div_assoc, pow_toNat_div]

theorem scaled_pos {m : ℕ} (hm : m ≠ 0) (e : ℤ) : (0 : ℚ) < m * 2 ^ e := by
  have : (0 : ℚ) < m := by exact_mod_cast Nat.pos_of_ne_zero hm
  positivity

namespace Double

def signFactor (negative : Bool) : ℚ := if negative then -1 else 1

@[simp] theorem signFactor_true : signFactor true = -1 := rfl

@[simp] theorem signFactor_false : signFactor false = 1 := rfl

def exact : Double → ℚ
  | .finite s m e _ => signFactor s * (m * 2 ^ e)
  | _ => 0

theorem units_exact {s : Bool} {m : ℕ} {e : ℤ} (h : Canonical m e) :
    ∃ n : ℤ, (finite s m e h).units = some n ∧ (n : ℚ) = (finite s m e h).exact * 2 ^ 1074 := by
  have he : (0 : ℤ) ≤ e + 1074 := by
    have := h.2.1
    omega
  have hpow : (2 : ℚ) ^ (e + 1074).toNat = 2 ^ e * 2 ^ 1074 := by
    rw [← zpow_natCast, Int.toNat_of_nonneg he, zpow_add₀ two_ne_zero]
    norm_num
  refine ⟨_, rfl, ?_⟩
  cases s <;> simp [exact, hpow, mul_assoc]

theorem numEq_finite {s t : Bool} {m n : ℕ} {e f : ℤ} (h : Canonical m e) (k : Canonical n f) :
    (finite s m e h).numEq (finite t n f k) = true ↔
      (finite s m e h).exact = (finite t n f k).exact := by
  obtain ⟨a, ha, hae⟩ := units_exact (s := s) h
  obtain ⟨b, hb, hbe⟩ := units_exact (s := t) k
  have hpos : (2 : ℚ) ^ 1074 ≠ 0 := by positivity
  rw [numEq, ha, hb, beq_iff_eq, Option.some.injEq, ← Int.cast_inj (α := ℚ), hae, hbe,
    mul_left_inj' hpos]

theorem compareInt_eq {s : Bool} {m : ℕ} {e : ℤ} (h : Canonical m e) (i : ℤ) :
    (finite s m e h).compareInt i = some (compare (finite s m e h).exact (i : ℚ)) := by
  obtain ⟨n, hn, hne⟩ := units_exact (s := s) h
  have hpos : (0 : ℚ) < 2 ^ 1074 := by positivity
  have hscale : ((i * (twoTo 1074 : ℕ) : ℤ) : ℚ) = i * 2 ^ 1074 := by
    push_cast
    rw [twoTo_cast]
  simp only [compareInt, hn, Option.map_some, Option.some.injEq]
  rcases lt_trichotomy (finite s m e h).exact (i : ℚ) with hlt | heq | hgt
  · rw [compare_lt_iff_lt.mpr hlt, compare_lt_iff_lt, ← Int.cast_lt (R := ℚ), hne, hscale]
    exact mul_lt_mul_of_pos_right hlt hpos
  · rw [compare_eq_iff_eq.mpr heq, compare_eq_iff_eq, ← Int.cast_inj (α := ℚ), hne, hscale, heq]
  · rw [compare_gt_iff_gt.mpr hgt, compare_gt_iff_gt, ← Int.cast_lt (R := ℚ), hne, hscale]
    exact mul_lt_mul_of_pos_right hgt hpos

/-- An integral double is the integer that it rounds to. -/
theorem truncate_exact {s : Bool} {m : ℕ} {e : ℤ} (h : Canonical m e)
    (hi : (finite s m e h).isIntegral = true) :
    ∃ i : ℤ, (finite s m e h).truncate? = some i ∧ (finite s m e h).exact = i := by
  refine ⟨_, rfl, ?_⟩
  rw [isIntegral, beq_iff_eq] at hi
  have hdiv : ((m * twoTo e.toNat / twoTo (-e).toNat : ℕ) : ℚ) = m * 2 ^ e := by
    rw [Nat.cast_div (Nat.dvd_of_mod_eq_zero hi) (by simp), ratio_eq]
  have hcast : ((((m * twoTo e.toNat / twoTo (-e).toNat : ℕ)) : ℤ) : ℚ) = m * 2 ^ e := by
    rw [Int.cast_natCast, hdiv]
  cases s with
  | false => simp only [exact, signFactor_false, one_mul, Bool.false_eq_true, ↓reduceIte, hcast]
  | true => simp only [exact, signFactor_true, ↓reduceIte, Int.cast_neg, hcast, neg_mul, one_mul]

theorem isIntegral_of_exact {s : Bool} {m : ℕ} {e : ℤ} (h : Canonical m e) {i : ℤ}
    (hi : (finite s m e h).exact = i) : (finite s m e h).isIntegral = true := by
  rw [isIntegral, beq_iff_eq]
  have habs : ((m : ℚ) * 2 ^ e) = (i.natAbs : ℕ) := by
    have hnonneg : (0 : ℚ) ≤ m * 2 ^ e := by positivity
    rw [Nat.cast_natAbs, Int.cast_abs, ← hi, exact, abs_mul]
    cases s <;> simp [abs_of_nonneg hnonneg]
  have hden : (0 : ℚ) < (twoTo (-e).toNat : ℕ) := by exact_mod_cast twoTo_pos _
  rw [← ratio_eq, div_eq_iff hden.ne'] at habs
  have hnat : m * twoTo e.toNat = i.natAbs * twoTo (-e).toNat := by exact_mod_cast habs
  rw [hnat, Nat.mul_mod_left]

theorem exact_ne_int {s : Bool} {m : ℕ} {e : ℤ} {h : Canonical m e}
    (hi : (finite s m e h).isIntegral = false) (i : ℤ) : (finite s m e h).exact ≠ i := by
  intro hexact
  rw [isIntegral_of_exact h hexact] at hi
  cases hi

end Double

end PenPlotter
