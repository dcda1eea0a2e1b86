import Mathlib.Data.List.TakeWhile
import PenPlotter.Number.Notation
import PenPlotter.Proofs.Number.Exact
/-! # What numerals denote

A numeral is a sign, digits and at most one point among them; it denotes a rational number. The texts
of integers and of decimals denote the integers and decimals that they were written for.
-/
namespace PenPlotter

namespace Numeral

def unsigned (s : List Char) : ℚ :=
  let whole := s.takeWhile (· != '.')
  let places := (s.dropWhile (· != '.')).drop 1
  (Nat.ofDigitChars 10 (whole ++ places) 0 : ℕ) / 10 ^ places.length

/-- The number that a text denotes, its sign included. -/
def denoted : List Char → ℚ
  | '-' :: s => -unsigned s
  | s => unsigned s

theorem bne_of_not_mem {s : List Char} {c : Char} (h : c ∉ s) : ∀ d ∈ s, (d != c) = true :=
  fun _ hd => bne_iff_ne.mpr (ne_of_mem_of_not_mem hd h)

theorem ne_of_isDigit {c d : Char} (hc : c.isDigit = true) (hd : d.isDigit = false) : c ≠ d := by
  rintro rfl
  rw [hc] at hd
  cases hd

theorem unsigned_digits {s : List Char} (h : '.' ∉ s) :
    unsigned s = (Nat.ofDigitChars 10 s 0 : ℕ) := by
  have hall := bne_of_not_mem h
  have htake : s.takeWhile (· != '.') = s := List.takeWhile_eq_self_iff.mpr hall
  have hdrop : s.dropWhile (· != '.') = [] := List.dropWhile_eq_nil_iff.mpr hall
  simp [unsigned, htake, hdrop]

theorem unsigned_point {a b : List Char} (h : '.' ∉ a) :
    unsigned (a ++ '.' :: b) = (Nat.ofDigitChars 10 (a ++ b) 0 : ℕ) / 10 ^ b.length := by
  have hall := bne_of_not_mem h
  have htake : (a ++ '.' :: b).takeWhile (· != '.') = a := by
    rw [List.takeWhile_append_of_pos hall]
    simp
  have hdrop : (a ++ '.' :: b).dropWhile (· != '.') = '.' :: b := by
    rw [List.dropWhile_append_of_pos hall]
    simp
  simp only [unsigned, htake, hdrop, List.drop_succ_cons, List.drop_zero]

theorem denoted_negative (s : List Char) : denoted ('-' :: s) = -unsigned s := rfl

theorem denoted_unsigned {s : List Char} (h : '-' ∉ s) : denoted s = unsigned s := by
  unfold denoted
  split
  · exact absurd List.mem_cons_self h
  · rfl

end Numeral

namespace Decimal
open Numeral

def value (d : Decimal) : ℚ := d.digits * 10 ^ d.exponent

theorem writable_of_lt {i : ℤ} {k : ℕ} (hk : k ≤ digitLimit) (h : i.natAbs < tenTo k) :
    writable i = true := by
  rw [writable, decide_eq_true_eq]
  generalize digitLimit = limit at hk ⊢
  exact h.trans_le (Nat.pow_le_pow_right (by decide) hk)

theorem isDigit_natText {n : ℕ} {c : Char} (h : c ∈ natText n) : c.isDigit = true :=
  Nat.isDigit_of_mem_toDigits (by decide) (by decide) h

theorem natText_ne_nil (n : ℕ) : natText n ≠ [] := Nat.toDigits_ne_nil

theorem ofDigitChars_natText (n : ℕ) : Nat.ofDigitChars 10 (natText n) 0 = n :=
  Nat.ofDigitChars_toDigits (by decide) (by decide)

theorem not_mem_natText {n : ℕ} {c : Char} (h : c.isDigit = false) : c ∉ natText n :=
  fun hc => ne_of_isDigit (isDigit_natText hc) h rfl

theorem mem_positional {d : Decimal} {c : Char} (h : c ∈ d.positional) :
    c.isDigit = true ∨ c = '.' := by
  have hzeros {k : ℕ} (hc : c ∈ List.replicate k '0') : c.isDigit = true := by
    rw [List.eq_of_mem_replicate hc]
    rfl
  unfold positional at h
  split at h
  · rcases List.mem_append.mp h with hc | hc
    · exact .inl (isDigit_natText hc)
    · exact .inl (hzeros hc)
  dsimp only at h
  split at h
  · rcases List.mem_append.mp h with hc | hc
    · exact .inl (isDigit_natText (List.mem_of_mem_take hc))
    · rcases List.mem_cons.mp hc with hc | hc
      · exact .inr hc
      · exact .inl (isDigit_natText (List.mem_of_mem_drop hc))
  · rcases List.mem_append.mp h with hc | hc
    · simp only [List.mem_cons] at hc
      rcases hc with rfl | rfl | hc
      · exact .inl rfl
      · exact .inr rfl
      · exact .inl (hzeros hc)
    · exact .inl (isDigit_natText hc)

theorem positional_ne_nil (d : Decimal) : d.positional ≠ [] := by
  unfold positional
  split
  · exact List.append_ne_nil_of_left_ne_nil (natText_ne_nil _) _
  dsimp only
  split <;> simp

theorem not_mem_positional {d : Decimal} {c : Char} (hd : c.isDigit = false) (hc : c ≠ '.') :
    c ∉ d.positional := by
  intro h
  rcases mem_positional h with hdigit | hpoint
  · exact ne_of_isDigit hdigit hd rfl
  · exact hc hpoint

theorem denoted_intText (i : ℤ) : denoted (intText i) = i := by
  have habs : unsigned (natText i.natAbs) = (i.natAbs : ℕ) := by
    rw [unsigned_digits (not_mem_natText (by decide)), ofDigitChars_natText]
  unfold intText
  split
  · rename_i h
    rw [denoted, habs, Nat.cast_natAbs, abs_of_neg h]
    push_cast
    rw [neg_neg]
  · rename_i h
    rw [denoted_unsigned (not_mem_natText (by decide)), habs, Nat.cast_natAbs,
      abs_of_nonneg (not_lt.mp h)]

/-- The positional text of a decimal denotes the decimal. -/
theorem denoted_positional (d : Decimal) : denoted d.positional = d.value := by
  have hpoint : '.' ∉ natText d.digits := not_mem_natText (by decide)
  have hneg (he : ¬ 0 ≤ d.exponent) : d.value = d.digits / 10 ^ (-d.exponent).toNat := by
    rw [value, ← pow_toNat_div, Int.toNat_of_nonpos (by omega), pow_zero, ← mul_div_assoc, mul_one]
  rw [denoted_unsigned (not_mem_positional (by decide) (by decide))]
  unfold positional
  split
  · -- no digits behind the point
    rename_i he
    rw [unsigned_digits (by simp [hpoint]), Nat.ofDigitChars_append, ofDigitChars_natText,
      Nat.ofDigitChars_replicate_zero, value, ← pow_toNat_div,
      Int.toNat_of_nonpos (by omega : -d.exponent ≤ 0)]
    push_cast
    ring
  · rename_i he
    dsimp only
    split
    · -- the point stands among the digits
      rename_i hlt
      have hlen : ((natText d.digits).drop
          ((natText d.digits).length - (-d.exponent).toNat)).length = (-d.exponent).toNat := by
        rw [List.length_drop]
        omega
      rw [unsigned_point (fun h => hpoint (List.mem_of_mem_take h)), List.take_append_drop,
        ofDigitChars_natText, hlen, hneg he]
    · -- zeros stand between the point and the digits
      rename_i hge
      have hlen : (List.replicate ((-d.exponent).toNat - (natText d.digits).length) '0' ++
          natText d.digits).length = (-d.exponent).toNat := by
        rw [List.length_append, List.length_replicate]
        omega
      change unsigned (['0'] ++ '.' :: (List.replicate _ '0' ++ natText d.digits)) = _
      rw [unsigned_point (by decide), hlen, hneg he, ← List.append_assoc, Nat.ofDigitChars_append]
      change ((Nat.ofDigitChars 10 (natText d.digits)
        (Nat.ofDigitChars 10 (List.replicate _ '0') 0) : ℕ) : ℚ) / _ = _
      rw [Nat.ofDigitChars_replicate_zero, mul_zero, ofDigitChars_natText]

end Decimal

/-- The integer that a finite double rounds to has at most 309 digits. -/
theorem Double.truncate_writable {s : Bool} {m : ℕ} {e : ℤ} (h : Canonical m e) {i : ℤ}
    (hi : (finite s m e h).truncate? = some i) : Decimal.writable i = true := by
  have hcanonical := h
  obtain ⟨hm, -, he, -⟩ := hcanonical
  have habs : i.natAbs = m * twoTo e.toNat / twoTo (-e).toNat := by
    cases hi
    cases s
    · exact Int.natAbs_natCast _
    · exact (Int.natAbs_neg _).trans (Int.natAbs_natCast _)
  have hscale : twoTo e.toNat ≤ twoTo 971 := twoTo_le (by omega)
  have hbound : m * twoTo e.toNat < twoTo 53 * twoTo 971 :=
    (Nat.mul_le_mul_left m hscale).trans_lt (Nat.mul_lt_mul_of_pos_right hm (twoTo_pos 971))
  have hdigits : twoTo 53 * twoTo 971 < tenTo 309 := by decide +kernel
  refine Decimal.writable_of_lt (k := 309) (by decide) ?_
  rw [habs]
  exact (Nat.div_le_self _ _).trans_lt (hbound.trans hdigits)

end PenPlotter
