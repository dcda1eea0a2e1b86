import PenPlotter.Proofs.Number.Shortest
/-! # What numerals with an exponent denote

The general notation of a double may have an exponent: digits, a mark and a signed power of ten. With
or without one, it denotes the shortest decimal of the double.
-/
namespace PenPlotter

namespace Numeral

/-- The power that is written behind the mark of an exponent; no text stands for the power zero. -/
def power : List Char → ℤ
  | '-' :: s => -(Nat.ofDigitChars 10 s 0 : ℕ)
  | '+' :: s => (Nat.ofDigitChars 10 s 0 : ℕ)
  | s => (Nat.ofDigitChars 10 s 0 : ℕ)

def denotedGeneral (s : List Char) : ℚ :=
  denoted (s.takeWhile (· != 'e')) * 10 ^ power ((s.dropWhile (· != 'e')).drop 1)

theorem denotedGeneral_plain {a : List Char} (h : 'e' ∉ a) : denotedGeneral a = denoted a := by
  have htake : a.takeWhile (· != 'e') = a := List.takeWhile_eq_self_iff.mpr (bne_of_not_mem h)
  have hdrop : a.dropWhile (· != 'e') = [] := List.dropWhile_eq_nil_iff.mpr (bne_of_not_mem h)
  rw [denotedGeneral, htake, hdrop]
  simp [power]

theorem takeWhile_mark {a : List Char} (h : 'e' ∉ a) (p : List Char) :
    (a ++ 'e' :: p).takeWhile (· != 'e') = a := by
  rw [List.takeWhile_append_of_pos (bne_of_not_mem h)]
  simp

theorem denotedGeneral_mark {a : List Char} (h : 'e' ∉ a) (p : List Char) :
    denotedGeneral (a ++ 'e' :: p) = denoted a * 10 ^ power p := by
  have hdrop : (a ++ 'e' :: p).dropWhile (· != 'e') = 'e' :: p := by
    rw [List.dropWhile_append_of_pos (bne_of_not_mem h)]
    simp
  rw [denotedGeneral, takeWhile_mark h, hdrop, List.drop_succ_cons, List.drop_zero]

theorem denotedGeneral_negative {s : List Char} (h : '-' ∉ s.takeWhile (· != 'e')) :
    denotedGeneral ('-' :: s) = -denotedGeneral s := by
  have htake : ('-' :: s).takeWhile (· != 'e') = '-' :: s.takeWhile (· != 'e') := by simp
  have hdrop : ('-' :: s).dropWhile (· != 'e') = s.dropWhile (· != 'e') := by simp
  rw [denotedGeneral, denotedGeneral, htake, hdrop, denoted_negative, denoted_unsigned h, neg_mul]

end Numeral

namespace Decimal
open Numeral

/-- The power of a scientific text, with a zero in front of a single digit. -/
theorem power_padded (i : ℤ) :
    power ((if i < 0 then '-' else '+') ::
      (if (natText i.natAbs).length < 2 then '0' :: natText i.natAbs else natText i.natAbs)) = i := by
  have hdigits : Nat.ofDigitChars 10 (if (natText i.natAbs).length < 2 then '0' :: natText i.natAbs
      else natText i.natAbs) 0 = i.natAbs := by
    split
    · rw [Nat.ofDigitChars_cons]
      exact ofDigitChars_natText _
    · exact ofDigitChars_natText _
  split
  · rw [power, hdigits]
    omega
  · rw [power, hdigits]
    omega

theorem not_mem_pointed {n : ℕ} {c : Char} (hd : c.isDigit = false) (hc : c ≠ '.') :
    c ∉ (natText n).take 1 ++ if (natText n).length ≤ 1 then [] else '.' :: (natText n).drop 1 := by
  have hdigits : c ∉ natText n := not_mem_natText hd
  rw [List.mem_append, not_or]
  refine ⟨fun h => hdigits (List.mem_of_mem_take h), ?_⟩
  split
  · exact List.not_mem_nil
  · rw [List.mem_cons, not_or]
    exact ⟨hc, fun h => hdigits (List.mem_of_mem_drop h)⟩

/-- The digits of a number with a point behind the first one. -/
theorem denoted_pointed (n : ℕ) :
    denoted ((natText n).take 1 ++ if (natText n).length ≤ 1 then [] else '.' :: (natText n).drop 1) =
      n / 10 ^ ((natText n).length - 1) := by
  have hpoint : '.' ∉ natText n := not_mem_natText (by decide)
  rw [denoted_unsigned (not_mem_pointed (by decide) (by decide))]
  split
  · rename_i hlen
    rw [List.take_of_length_le hlen, List.append_nil, unsigned_digits hpoint, ofDigitChars_natText,
      Nat.sub_eq_zero_of_le hlen, pow_zero, div_one]
  · rw [unsigned_point fun h => hpoint (List.mem_of_mem_take h), List.take_append_drop,
      ofDigitChars_natText, List.length_drop]

theorem denotedGeneral_scientific (d : Decimal) : denotedGeneral d.scientific = d.value := by
  have hlen : 1 ≤ (natText d.digits).length := List.length_pos_iff.mpr (natText_ne_nil _)
  rw [scientific, denotedGeneral_mark (not_mem_pointed (by decide) (by decide)), denoted_pointed,
    power_padded, value, zpow_add₀ (by norm_num), ← Nat.cast_pred hlen, zpow_natCast]
  field_simp

theorem not_mem_pointZero {d : Decimal} {c : Char} (hd : c.isDigit = false) (hc : c ≠ '.') :
    c ∉ d.positional ++ ['.', '0'] := by
  have hzero : c ≠ '0' := by
    rintro rfl
    cases hd
  simp [not_mem_positional hd hc, hc, hzero]

theorem denoted_pointZero {d : Decimal} (he : 0 ≤ d.exponent) :
    denoted (d.positional ++ ['.', '0']) = d.value := by
  have hpoint : '.' ∉ d.positional := by
    rw [positional, if_pos he]
    simp [not_mem_natText (c := '.') (by decide)]
  rw [denoted_unsigned (not_mem_pointZero (by decide) (by decide)), unsigned_point hpoint,
    ← denoted_positional, denoted_unsigned (not_mem_positional (by decide) (by decide)),
    unsigned_digits hpoint, Nat.ofDigitChars_append]
  simp [Nat.ofDigitChars_cons]

/-- The general notation of a decimal denotes the decimal. -/
theorem denotedGeneral_general (d : Decimal) : denotedGeneral d.general = d.value := by
  rw [general]
  split
  · exact denotedGeneral_scientific d
  split
  · rename_i he
    rw [denotedGeneral_plain (not_mem_pointZero (by decide) (by decide)), denoted_pointZero he]
  · rw [denotedGeneral_plain (not_mem_positional (by decide) (by decide)), denoted_positional]

theorem sign_not_mem_general (d : Decimal) : '-' ∉ d.general.takeWhile (· != 'e') := by
  rw [general]
  split
  · rw [scientific, takeWhile_mark (not_mem_pointed (by decide) (by decide))]
    exact not_mem_pointed (by decide) (by decide)
  split
  · exact fun h => not_mem_pointZero (by decide) (by decide) (List.takeWhile_sublist _ |>.mem h)
  · exact fun h => not_mem_positional (by decide) (by decide) (List.takeWhile_sublist _ |>.mem h)

end Decimal

namespace Double
open Decimal Numeral

/-- The general notation of a double other than zero denotes its shortest decimal. -/
theorem denotedGeneral_finite {s : Bool} {m : ℕ} {e : ℤ} (h : Canonical m e) (hm : m ≠ 0) :
    denotedGeneral (finite s m e h).general = signFactor s * (shortest m e).value := by
  rw [general, if_neg hm, ← denotedGeneral_general]
  cases s with
  | false => rw [signText, if_neg Bool.false_ne_true, List.nil_append, signFactor_false, one_mul]
  | true =>
    rw [signText, if_pos rfl, List.singleton_append, denotedGeneral_negative (sign_not_mem_general _),
      signFactor_true, neg_one_mul]

end Double

end PenPlotter
