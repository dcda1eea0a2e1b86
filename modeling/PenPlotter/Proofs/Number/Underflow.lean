import PenPlotter.Proofs.Number.Rounding
/-! # Which ratios round to zero

A ratio is rounded to zero just where it is at most half of the least double above zero; the half
itself is a tie, and zero is the even neighbour. The sign takes no part in rounding.
-/
namespace PenPlotter.Double

inductive IsPositive : Double → Prop
  | finite {s : Bool} {m : ℕ} {e : ℤ} {h : Canonical m e} (hpos : 0 < (finite s m e h).exact) :
      IsPositive (finite s m e h)
  | infinite : IsPositive (infinite false)

theorem not_isPositive_nan (p : ℕ) : ¬ (nan p).IsPositive := nofun

theorem isPositive_finite {m : ℕ} {e : ℤ} {h : Canonical m e} :
    (finite false m e h).IsPositive ↔ m ≠ 0 := by
  constructor
  · rintro ⟨hpos⟩ rfl
    simp [exact] at hpos
  · intro hm
    exact .finite (by simpa [exact] using scaled_pos hm e)

theorem isPositive_ofParts {m : ℕ} (hm : m ≠ 0) (e : ℤ) : (ofParts false m e).IsPositive := by
  unfold ofParts
  split
  · exact isPositive_finite.mpr hm
  · exact .infinite

theorem ofParts_negate (m : ℕ) (e : ℤ) : (ofParts false m e).negate = ofParts true m e := by
  unfold ofParts
  split <;> rfl

theorem ofRatio_negate (num den : ℕ) : (ofRatio false num den).negate = ofRatio true num den := by
  unfold ofRatio
  split
  · rfl
  · dsimp only
    split <;> exact ofParts_negate _ _

theorem roundHalfEven_eq_zero_iff {num den : ℕ} (hd : 0 < den) :
    roundHalfEven num den = 0 ↔ 2 * num ≤ den := by
  have hsum := Nat.div_add_mod num den
  have hmod := Nat.mod_lt num hd
  rw [roundHalfEven]
  rcases Nat.eq_zero_or_pos (num / den) with hq | hq
  · rw [hq, mul_zero, zero_add] at hsum
    simp only [hq, hsum]
    split
    · omega
    · split <;> simp <;> omega
  · have hle : den ≤ den * (num / den) := Nat.le_mul_of_pos_right den hq
    refine iff_of_false ?_ (by omega)
    split
    · omega
    · split
      · omega
      · split <;> omega

/-- The mantissa of a ratio on the grid of `2 ^ e` is zero up to half of a step. -/
theorem mantissa_eq_zero_iff {num den : ℕ} (hd : 0 < den) (e : ℤ) :
    roundHalfEven (num * twoTo (-e).toNat) (den * twoTo e.toNat) = 0 ↔
      2 * ((num : ℚ) / den) ≤ 2 ^ e := by
  have hden : (0 : ℚ) < den := by exact_mod_cast hd
  rw [roundHalfEven_eq_zero_iff (Nat.mul_pos hd (twoTo_pos _)), ← Nat.cast_le (α := ℚ),
    ← pow_toNat_div, mul_div_assoc', div_le_div_iff₀ hden (by positivity)]
  push_cast
  rw [twoTo_cast, twoTo_cast, mul_comm (2 ^ e.toNat) (den : ℚ), mul_assoc]

/-- The grid on which a ratio is rounded has steps of more than twice the ratio just where that is at
most half of the least double above zero. -/
theorem double_le_step_iff {q : ℚ} (hq : 0 < q) :
    2 * q ≤ 2 ^ max (Int.log 2 q - 52) (-1074) ↔ q ≤ 2 ^ (-1075 : ℤ) := by
  have hlog : (2 : ℚ) ^ Int.log 2 q ≤ q := Int.zpow_log_le_self (by decide) hq
  have hleast : (2 : ℚ) ^ (-1074 : ℤ) = 2 * 2 ^ (-1075 : ℤ) := by
    rw [show (-1074 : ℤ) = 1 + -1075 by norm_num, zpow_add₀ two_ne_zero, zpow_one]
  rcases le_total (Int.log 2 q - 52) (-1074) with h | h
  · rw [max_eq_right h, hleast]
    exact mul_le_mul_iff_right₀ two_pos
  · -- A normal ratio is beyond both bounds.
    rw [max_eq_left h]
    have hstep : (2 : ℚ) ^ (Int.log 2 q - 52) ≤ q :=
      (zpow_le_zpow_right₀ one_le_two (by omega)).trans hlog
    have hnormal : (2 : ℚ) ^ (-1075 : ℤ) < q :=
      (zpow_lt_zpow_right₀ one_lt_two (by omega)).trans_le hlog
    exact iff_of_false (by linarith) (not_le.mpr hnormal)

/-- A ratio rounds to a double above zero unless it is at most half of the least one. -/
theorem isPositive_ofRatio {num den : ℕ} (hd : 0 < den) :
    (ofRatio false num den).IsPositive ↔ (2 : ℚ) ^ (-1075 : ℤ) < num / den := by
  have hzero : ¬ (zero false).IsPositive := fun h => isPositive_finite.mp h rfl
  rcases Nat.eq_zero_or_pos num with rfl | hn
  · rw [ofRatio, if_pos rfl]
    exact iff_of_false hzero (by simp only [Nat.cast_zero, zero_div, not_lt]; positivity)
  · have hq : (0 : ℚ) < num / den := by
      have : (0 : ℚ) < num := by exact_mod_cast hn
      have : (0 : ℚ) < den := by exact_mod_cast hd
      positivity
    simp only [ofRatio, hn.ne', ↓reduceIte, floorLog_eq hn hd]
    have hm := (mantissa_eq_zero_iff hd _).trans (double_le_step_iff hq)
    rw [← not_le, ← hm]
    generalize hexp : max (Int.log 2 ((num : ℚ) / den) - 52) (-1074) = e at hm
    generalize roundHalfEven (num * twoTo (-e).toNat) (den * twoTo e.toNat) = m at hm
    split
    · rename_i hfull
      exact iff_of_true (isPositive_ofParts (by decide) _) (by rw [hfull]; decide)
    · by_cases hmzero : m = 0
      · have hlog : Int.log 2 ((num : ℚ) / den) < -1074 := by
          rw [← Int.lt_zpow_iff_log_lt (by decide) hq]
          exact (hm.mp hmzero).trans_lt (zpow_lt_zpow_right₀ one_lt_two (by norm_num))
        have he : e = -1074 := by omega
        rw [hmzero, he]
        exact iff_of_false hzero (by simp)
      · exact iff_of_true (isPositive_ofParts hmzero e) hmzero

end PenPlotter.Double
