import Mathlib.Data.Int.Log
import Mathlib.Data.Rat.Floor
import PenPlotter.Proofs.Number.Exact
/-! # Rounding to doubles

The double nearest to a ratio depends on the number that the ratio is, not on how it is written; a
number that a double is goes to that double, and an integer goes to an integral double.
-/
namespace PenPlotter.Double

/-- The exponent that is found is the binary logarithm of the ratio, rounded down. -/
theorem floorLog_eq {num den : ℕ} (hn : 0 < num) (hd : 0 < den) :
    floorLog num den = Int.log 2 ((num : ℚ) / den) := by
  have hnum : (0 : ℚ) < num := by exact_mod_cast hn
  have hden : (0 : ℚ) < den := by exact_mod_cast hd
  have hq : (0 : ℚ) < num / den := div_pos hnum hden
  -- The logarithm is `k` or one less, and the test tells which.
  set k : ℤ := (num.log2 : ℤ) - den.log2 with hk
  have hnum_le : (2 : ℚ) ^ num.log2 ≤ num := by exact_mod_cast Nat.log2_self_le hn.ne'
  have hnum_lt : (num : ℚ) < 2 ^ (num.log2 + 1) := by exact_mod_cast Nat.lt_log2_self
  have hden_le : (2 : ℚ) ^ den.log2 ≤ den := by exact_mod_cast Nat.log2_self_le hd.ne'
  have hden_lt : (den : ℚ) < 2 ^ (den.log2 + 1) := by exact_mod_cast Nat.lt_log2_self
  have hupper : (num : ℚ) / den < 2 ^ (k + 1) := by
    have hpow : (2 : ℚ) ^ (k + 1) = 2 ^ (num.log2 + 1) / 2 ^ den.log2 := by
      rw [hk, sub_add_eq_add_sub, zpow_sub₀ two_ne_zero]
      norm_cast
    rw [hpow]
    exact div_lt_div₀ hnum_lt hden_le (by positivity) (by positivity)
  have hlower : (2 : ℚ) ^ (k - 1) < num / den := by
    have hpow : (2 : ℚ) ^ (k - 1) = 2 ^ num.log2 / 2 ^ (den.log2 + 1) := by
      rw [hk, sub_sub, zpow_sub₀ two_ne_zero]
      norm_cast
    rw [hpow]
    exact div_lt_div₀' hnum_le hden_lt hnum hden
  have htest : den * twoTo k.toNat ≤ num * twoTo (-k).toNat ↔ (2 : ℚ) ^ k ≤ num / den := by
    rw [← pow_toNat_div, div_le_div_iff₀ (by positivity) hden, mul_comm, ← Nat.cast_le (α := ℚ)]
    push_cast
    rw [twoTo_cast, twoTo_cast]
  have hlt := (Int.lt_zpow_iff_log_lt (b := 2) (by decide) hq).mp hupper
  have hge := (Int.zpow_le_iff_le_log (b := 2) (by decide) hq).mp hlower.le
  have hle : (2 : ℚ) ^ k ≤ num / den ↔ k ≤ Int.log 2 ((num : ℚ) / den) :=
    Int.zpow_le_iff_le_log (b := 2) (by decide) hq
  simp only [floorLog, ← hk]
  split
  · rename_i h
    have := hle.mp (htest.mp h)
    omega
  · rename_i h
    have : ¬ k ≤ Int.log 2 ((num : ℚ) / den) := fun hlog => h (htest.mpr (hle.mpr hlog))
    omega

theorem roundHalfEven_mul {c : ℕ} (hc : 0 < c) (num den : ℕ) :
    roundHalfEven (num * c) (den * c) = roundHalfEven num den := by
  simp only [roundHalfEven, Nat.mul_div_mul_right _ _ hc, Nat.mul_mod_mul_right]
  rw [← mul_assoc]
  simp only [Nat.mul_lt_mul_right hc]

theorem roundHalfEven_congr {a b c d : ℕ} (hb : 0 < b) (hd : 0 < d) (h : a * d = c * b) :
    roundHalfEven a b = roundHalfEven c d := by
  rw [← roundHalfEven_mul hd a b, ← roundHalfEven_mul hb c d, h, mul_comm b d]

theorem roundHalfEven_exact {n d : ℕ} (hd : 0 < d) : roundHalfEven (n * d) d = n := by
  simp only [roundHalfEven, Nat.mul_div_cancel _ hd, Nat.mul_mod_left]
  rw [if_pos (by omega)]

/-- Equal ratios have the same nearest double. -/
theorem ofRatio_congr {s : Bool} {a b c d : ℕ} (hb : 0 < b) (hd : 0 < d) (h : a * d = c * b) :
    ofRatio s a b = ofRatio s c d := by
  rcases Nat.eq_zero_or_pos a with rfl | ha
  · have hc : c = 0 := by
      rw [zero_mul] at h
      exact (Nat.mul_eq_zero.mp h.symm).resolve_right hb.ne'
    simp [ofRatio, hc]
  · have hc : 0 < c := by
      rcases Nat.eq_zero_or_pos c with rfl | hc
      · rw [zero_mul] at h
        exact absurd h (Nat.mul_pos ha hd).ne'
      · exact hc
    have hratio : (a : ℚ) / b = c / d := by
      rw [div_eq_div_iff (by exact_mod_cast hb.ne') (by exact_mod_cast hd.ne')]
      exact_mod_cast h
    have hlog : floorLog a b = floorLog c d := by
      rw [floorLog_eq ha hb, floorLog_eq hc hd, hratio]
    simp only [ofRatio, ha.ne', hc.ne', ↓reduceIte, hlog]
    rw [roundHalfEven_congr (Nat.mul_pos hb (twoTo_pos _)) (Nat.mul_pos hd (twoTo_pos _))]
    generalize twoTo (-max (floorLog c d - 52) (-1074)).toNat = x
    generalize twoTo (max (floorLog c d - 52) (-1074)).toNat = y
    calc a * x * (d * y) = a * d * (x * y) := by ring
      _ = c * b * (x * y) := by rw [h]
      _ = c * x * (b * y) := by ring

theorem log_scaled {m : ℕ} (hm : m ≠ 0) (e : ℤ) :
    Int.log 2 ((m : ℚ) * 2 ^ e) = m.log2 + e := by
  have hpos := scaled_pos hm e
  have hle : (2 : ℚ) ^ m.log2 ≤ m := by exact_mod_cast Nat.log2_self_le hm
  have hlt : (m : ℚ) < 2 ^ (m.log2 + 1) := by exact_mod_cast Nat.lt_log2_self
  apply le_antisymm
  · rw [← Int.lt_add_one_iff, ← Int.lt_zpow_iff_log_lt (by decide) hpos]
    push_cast
    rw [add_right_comm, zpow_add₀ two_ne_zero]
    exact mul_lt_mul_of_pos_right (by exact_mod_cast hlt) (by positivity)
  · rw [← Int.zpow_le_iff_le_log (by decide) hpos]
    push_cast
    rw [zpow_add₀ two_ne_zero, zpow_natCast]
    exact mul_le_mul_of_nonneg_right hle (by positivity)

/-- A number that a double is goes to that double. -/
theorem ofRatio_exact {s : Bool} {m : ℕ} {e : ℤ} (h : Canonical m e) (hm : m ≠ 0) :
    ofRatio s (m * twoTo e.toNat) (twoTo (-e).toNat) = finite s m e h := by
  obtain ⟨hlt, hmin, hmax, hlead⟩ := h
  have hnum : 0 < m * twoTo e.toNat := Nat.mul_pos (Nat.pos_of_ne_zero hm) (twoTo_pos _)
  have hlog : floorLog (m * twoTo e.toNat) (twoTo (-e).toNat) = m.log2 + e := by
    rw [floorLog_eq hnum (twoTo_pos _), ratio_eq, log_scaled hm]
  have hexp : max ((m.log2 : ℤ) + e - 52) (-1074) = e := by
    have hlog2 : m.log2 < 53 := (Nat.log2_lt hm).mpr hlt
    rcases hlead with hlead | hlead
    · have : 52 ≤ m.log2 := (Nat.le_log2 hm).mpr hlead
      omega
    · omega
  have hround : roundHalfEven (m * twoTo e.toNat * twoTo (-e).toNat)
      (twoTo (-e).toNat * twoTo e.toNat) = m := by
    rw [mul_assoc, mul_comm (twoTo e.toNat)]
    exact roundHalfEven_exact (Nat.mul_pos (twoTo_pos _) (twoTo_pos _))
  simp only [ofRatio, hnum.ne', ↓reduceIte, hlog, hexp, hround]
  rw [if_neg hlt.ne, ofParts, dif_pos ⟨hlt, hmin, hmax, hlead⟩]

/-- Finite doubles of one sign that are the same number, and not zero, are the same double. -/
theorem finite_inj {m n : ℕ} {e f : ℤ} (h : Canonical m e) (k : Canonical n f) (hm : m ≠ 0)
    (heq : (m : ℚ) * 2 ^ e = n * 2 ^ f) : m = n ∧ e = f := by
  have hn : n ≠ 0 := by
    rintro rfl
    have hne := (scaled_pos hm e).ne'
    simp [heq] at hne
  rw [← ratio_eq, ← ratio_eq, div_eq_div_iff (by simp) (by simp)] at heq
  -- Both doubles are what their common number is rounded to.
  have hcross : m * twoTo e.toNat * twoTo (-f).toNat = n * twoTo f.toNat * twoTo (-e).toNat := by
    exact_mod_cast heq
  have hsame := ofRatio_congr (s := false) (twoTo_pos _) (twoTo_pos _) hcross
  rw [ofRatio_exact h hm, ofRatio_exact k hn] at hsame
  injection hsame with _ hmn hef
  exact ⟨hmn, hef⟩

theorem isIntegral_ofParts {s : Bool} {m : ℕ} {e : ℤ} (hf : (ofParts s m e).isFinite = true)
    (h : m * twoTo e.toNat % twoTo (-e).toNat = 0) : (ofParts s m e).isIntegral = true := by
  unfold ofParts at hf ⊢
  split
  · rw [isIntegral, beq_iff_eq]
    exact h
  · rename_i hc
    simp [dif_neg hc, isFinite] at hf

/-- A mantissa whose exponent is not negative stands for an integer. -/
theorem scaled_mod_of_nonneg (m : ℕ) {e : ℤ} (he : 0 ≤ e) :
    m * twoTo e.toNat % twoTo (-e).toNat = 0 := by
  rw [Int.toNat_of_nonpos (by omega : -e ≤ 0)]
  exact Nat.mod_one _

theorem isIntegral_ofRatio {s : Bool} {n : ℕ} (hf : (ofRatio s n 1).isFinite = true) :
    (ofRatio s n 1).isIntegral = true := by
  rcases Nat.eq_zero_or_pos n with rfl | hn
  · simp [ofRatio, zero, isIntegral]
  · simp only [ofRatio, hn.ne', ↓reduceIte] at hf ⊢
    generalize max (floorLog n 1 - 52) (-1074) = e at hf ⊢
    rcases le_or_gt 0 e with he | he
    · split at hf <;> rename_i hm
      · rw [if_pos hm]
        exact isIntegral_ofParts hf (scaled_mod_of_nonneg _ (by omega))
      · rw [if_neg hm]
        exact isIntegral_ofParts hf (scaled_mod_of_nonneg _ he)
    · have hround : roundHalfEven (n * twoTo (-e).toNat) (1 * twoTo e.toNat) =
          n * twoTo (-e).toNat := by
        rw [Int.toNat_of_nonpos he.le]
        change roundHalfEven (n * twoTo (-e).toNat) 1 = _
        simpa only [mul_one] using roundHalfEven_exact (n := n * twoTo (-e).toNat) Nat.one_pos
      rw [hround] at hf ⊢
      split at hf <;> rename_i hm
      · rw [if_pos hm]
        refine isIntegral_ofParts hf ?_
        have hhalf : twoTo 52 = n * twoTo (-(e + 1)).toNat := by
          have hsucc : (-e).toNat = (-(e + 1)).toNat + 1 := by omega
          rw [hsucc] at hm
          have hdouble : twoTo 52 * 2 = n * twoTo (-(e + 1)).toNat * 2 := by
            rw [mul_assoc]
            exact hm.symm
          exact Nat.mul_right_cancel two_pos hdouble
        rw [hhalf, mul_right_comm]
        exact Nat.mul_mod_left _ _
      · rw [if_neg hm]
        refine isIntegral_ofParts hf ?_
        rw [mul_right_comm]
        exact Nat.mul_mod_left _ _

end PenPlotter.Double
