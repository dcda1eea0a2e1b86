import PenPlotter.Proofs.Number.Numeral
import PenPlotter.Proofs.Number.Rounding
/-! # Shortest decimals read back

The shortest decimal of a double is nearest to that double and to no other, whichever way it was
found. So different doubles have different shortest decimals, and the shortest decimal of a double
that is no integer is none either. `Double.written` is the number that the text of a double denotes.
-/
namespace PenPlotter

namespace Decimal
open Double

def nearest (d : Decimal) : Double :=
  ofRatio false (d.digits * tenTo d.exponent.toNat) (tenTo (-d.exponent).toNat)

theorem ratio_value (d : Decimal) :
    ((d.digits * tenTo d.exponent.toNat : ℕ) : ℚ) / (tenTo (-d.exponent).toNat : ℕ) = d.value := by
  push_cast
  rw [tenTo_cast, tenTo_cast, mul_div_assoc, pow_toNat_div, value]

theorem nearest_eq {d : Decimal} {num den : ℕ} (hden : 0 < den) (h : d.value = num / den) :
    d.nearest = ofRatio false num den := by
  have hten : ((tenTo (-d.exponent).toNat : ℕ) : ℚ) ≠ 0 := by simp
  have hden' : (den : ℚ) ≠ 0 := by exact_mod_cast hden.ne'
  refine ofRatio_congr (tenTo_pos _) hden ?_
  rw [← ratio_value, div_eq_div_iff hten hden'] at h
  exact_mod_cast h

theorem nearest_congr {c d : Decimal} (h : c.value = d.value) : c.nearest = d.nearest :=
  nearest_eq (tenTo_pos _) (h.trans (ratio_value d).symm)

/-- A decimal that reads back as a double other than zero is nearest to it. -/
theorem nearest_of_toDouble {d : Decimal} {m : ℕ} {e : ℤ} {h : Canonical m e} (hm : m ≠ 0)
    (hd : d.toDouble = finite false m e h) : d.nearest = finite false m e h := by
  unfold toDouble ofDecimal at hd
  split at hd
  · injection hd with _ hzero
    exact absurd hzero.symm hm
  split at hd
  · cases hd
  split at hd
  · injection hd with _ hzero
    exact absurd hzero.symm hm
  · exact hd

theorem onGrid?_nearest {m : ℕ} {e p : ℤ} (h : Canonical m e) (hm : m ≠ 0) {d : Decimal}
    (hd : onGrid? m e p = some d) : d.nearest = finite false m e h := by
  unfold onGrid? at hd
  obtain ⟨n, -, hn⟩ := List.exists_of_findSome?_eq_some hd
  split at hn
  · rename_i hread
    cases hn
    rw [ofParts, dif_pos h] at hread
    exact nearest_of_toDouble hm hread
  · cases hn

theorem value_exact (m : ℕ) (e : ℤ) : (exact m e).value = m * 2 ^ e := by
  rw [value, exact, ← ratio_eq]
  rcases le_total 0 e with he | he
  · rw [min_eq_right he, Int.toNat_of_nonpos (by omega : -e ≤ 0)]
    simp [twoTo]
  · rw [min_eq_left he, ← pow_toNat_div, Int.toNat_of_nonpos he]
    have hten : (10 : ℚ) ^ (-e).toNat = 5 ^ (-e).toNat * 2 ^ (-e).toNat := by
      rw [← mul_pow]
      norm_num
    rw [hten, twoTo_cast]
    simp only [Nat.pow_eq]
    push_cast
    rw [twoTo_cast]
    field_simp

theorem exact_nearest {m : ℕ} {e : ℤ} (h : Canonical m e) (hm : m ≠ 0) :
    (exact m e).nearest = finite false m e h := by
  rw [nearest_eq (twoTo_pos _) ((value_exact m e).trans (ratio_eq m e).symm), ofRatio_exact h hm]

theorem value_strip (n : ℕ) (e : ℤ) : (strip n e).value = n * 10 ^ e := by
  induction n using Nat.strongRecOn generalizing e with
  | _ n ih =>
    rw [strip]
    split
    · rename_i h
      rw [ih (n / 10) (Nat.div_lt_self (Nat.pos_of_ne_zero h.1) (by decide)) (e + 1),
        zpow_add₀ (by norm_num), zpow_one]
      have hn : (n : ℚ) = (n / 10 : ℕ) * 10 := by
        exact_mod_cast (Nat.div_mul_cancel (Nat.dvd_of_mod_eq_zero h.2)).symm
      rw [hn]
      ring
    · rfl

theorem nearest_shortest {m : ℕ} {e : ℤ} (h : Canonical m e) (hm : m ≠ 0) :
    (shortest m e).nearest = finite false m e h := by
  unfold shortest
  dsimp only
  rw [nearest_congr (value_strip _ _)]
  cases hfound : (List.range 17).findSome? fun i : ℕ =>
      onGrid? m e (magnitude (m * twoTo e.toNat) (twoTo (-e).toNat) - (i + 1)) with
  | none => exact exact_nearest h hm
  | some d =>
    obtain ⟨i, -, hi⟩ := List.exists_of_findSome?_eq_some hfound
    exact onGrid?_nearest h hm hi

theorem shortest_inj {m n : ℕ} {e f : ℤ} (h : Canonical m e) (k : Canonical n f) (hm : m ≠ 0)
    (hn : n ≠ 0) (hv : (shortest m e).value = (shortest n f).value) : m = n ∧ e = f := by
  have hsame := nearest_congr hv
  rw [nearest_shortest h hm, nearest_shortest k hn] at hsame
  injection hsame with _ hmn hef
  exact ⟨hmn, hef⟩

/-- Only an integral double has an integer for its shortest decimal. -/
theorem isIntegral_of_shortest {m : ℕ} {e : ℤ} (h : Canonical m e) (hm : m ≠ 0) {n : ℕ}
    (hv : (shortest m e).value = n) : (finite false m e h).isIntegral = true := by
  have hratio : (shortest m e).value = (n : ℚ) / (1 : ℕ) := by simp [hv]
  rw [← nearest_shortest h hm, nearest_eq Nat.one_pos hratio]
  apply isIntegral_ofRatio
  rw [← nearest_eq Nat.one_pos hratio, nearest_shortest h hm]
  rfl

theorem value_nonneg (d : Decimal) : 0 ≤ d.value := by
  unfold value
  positivity

theorem value_shortest_pos {m : ℕ} {e : ℤ} (h : Canonical m e) (hm : m ≠ 0) :
    0 < (shortest m e).value := by
  refine lt_of_le_of_ne (value_nonneg _) fun hzero => ?_
  have hnear := nearest_shortest h hm
  have hratio : (shortest m e).value = ((0 : ℕ) : ℚ) / (1 : ℕ) := by simp [← hzero]
  rw [nearest_eq Nat.one_pos hratio] at hnear
  injection hnear with _ hm'
  exact hm hm'.symm

end Decimal

namespace Double
open Decimal

def written : Double → ℚ
  | .finite s m e h =>
    if (finite s m e h).isIntegral then (finite s m e h).exact
    else signFactor s * (shortest m e).value
  | _ => 0

theorem mantissa_ne_zero {s : Bool} {m : ℕ} {e : ℤ} {h : Canonical m e}
    (hi : (finite s m e h).isIntegral = false) : m ≠ 0 := by
  rintro rfl
  simp [isIntegral] at hi

theorem signFactor_mul_inj {s t : Bool} {x y : ℚ} (hx : 0 < x) (hy : 0 < y) :
    signFactor s * x = signFactor t * y ↔ s = t ∧ x = y := by
  cases s <;> cases t <;> simp only [signFactor_true, signFactor_false, neg_mul, one_mul, neg_inj,
    true_and, reduceCtorEq, false_and, iff_false]
  · exact fun h => by linarith
  · exact fun h => by linarith

/-- Doubles that are the same number, and not zero, are one double. -/
theorem eq_of_exact {s t : Bool} {m n : ℕ} {e f : ℤ} {h : Canonical m e} {k : Canonical n f}
    (hm : m ≠ 0) (hn : n ≠ 0) (heq : (finite s m e h).exact = (finite t n f k).exact) :
    finite s m e h = finite t n f k := by
  rw [exact, exact, signFactor_mul_inj (scaled_pos hm e) (scaled_pos hn f)] at heq
  obtain ⟨rfl, hv⟩ := heq
  obtain ⟨rfl, rfl⟩ := finite_inj h k hm hv
  rfl

theorem written_ne_int {s : Bool} {m : ℕ} {e : ℤ} {h : Canonical m e}
    (hi : (finite s m e h).isIntegral = false) (i : ℤ) :
    signFactor s * (shortest m e).value ≠ i := by
  intro hv
  have hnat : (shortest m e).value = (i.natAbs : ℕ) := by
    rw [Nat.cast_natAbs, Int.cast_abs, ← hv, abs_mul, abs_of_nonneg (value_nonneg _)]
    cases s <;> simp
  have hint : (finite s m e h).isIntegral = true :=
    isIntegral_of_shortest h (mantissa_ne_zero hi) hnat
  rw [hi] at hint
  cases hint

/-- Finite doubles are written alike just where they are the same number. -/
theorem written_eq_written {s t : Bool} {m n : ℕ} {e f : ℤ} (h : Canonical m e)
    (k : Canonical n f) :
    (finite s m e h).written = (finite t n f k).written ↔
      (finite s m e h).exact = (finite t n f k).exact := by
  cases hi : (finite s m e h).isIntegral <;> cases hj : (finite t n f k).isIntegral
  · have hm := mantissa_ne_zero hi
    have hn := mantissa_ne_zero hj
    rw [written, written, hi, hj, if_neg Bool.false_ne_true, if_neg Bool.false_ne_true, exact, exact,
      signFactor_mul_inj (value_shortest_pos h hm) (value_shortest_pos k hn),
      signFactor_mul_inj (scaled_pos hm e) (scaled_pos hn f)]
    refine and_congr_right fun _ => ⟨fun hv => ?_, fun hv => ?_⟩
    · obtain ⟨rfl, rfl⟩ := shortest_inj h k hm hn hv
      rfl
    · obtain ⟨rfl, rfl⟩ := finite_inj h k hm hv
      rfl
  · obtain ⟨j, -, hj'⟩ := truncate_exact k hj
    simp only [written, hi, hj, Bool.false_eq_true, ↓reduceIte]
    exact iff_of_false (fun hv => written_ne_int hi j (hv.trans hj'))
      fun hv => exact_ne_int hi j (hv.trans hj')
  · obtain ⟨i, -, hi'⟩ := truncate_exact h hi
    simp only [written, hi, hj, Bool.false_eq_true, ↓reduceIte]
    exact iff_of_false (fun hv => written_ne_int hj i (hv.symm.trans hi'))
      fun hv => exact_ne_int hj i (hv.symm.trans hi')
  · simp only [written, hi, hj, ↓reduceIte]

/-- A finite double is written as an integer just where it is that integer. -/
theorem written_eq_int {s : Bool} {m : ℕ} {e : ℤ} (h : Canonical m e) (i : ℤ) :
    (finite s m e h).written = i ↔ (finite s m e h).exact = i := by
  cases hi : (finite s m e h).isIntegral
  · simp only [written, hi, Bool.false_eq_true, ↓reduceIte]
    exact iff_of_false (written_ne_int hi i) (exact_ne_int hi i)
  · simp only [written, hi, ↓reduceIte]

end Double

end PenPlotter
