import PenPlotter.Number.Literal
import PenPlotter.Proofs.Number.Least
import PenPlotter.Proofs.Number.Underflow
import PenPlotter.Proofs.Value.NumberText
/-! # Least numerals read back

A numeral in least form is read as the double nearest to what it denotes. So the text that a finite
double is written as reads back as the double, unless that is the negative zero, whose sign the text
does not have.
-/
namespace PenPlotter

namespace Text
open Numeral

theorem toNat_of_isDigit {c : Char} (h : c.isDigit = true) : 48 ≤ c.toNat ∧ c.toNat ≤ 57 :=
  Char.isDigit_iff_toNat.mp h

theorem asciiNumeral_codes {s : List Char} (h : ∀ c ∈ s, isMark c = true) :
    asciiNumeral (codes s) = s := by
  have hchar : ∀ c ∈ s, asciiChar c = c := fun c hc => if_pos (isMark_ascii (h c hc))
  rw [asciiNumeral, codes, List.map_map]
  exact (List.map_congr_left hchar).trans (List.map_id s)

theorem isBlank_of_isMark {c : Char} (h : isMark c = true) : isBlank c = false := by
  simp only [isMark, Bool.or_eq_true, beq_iff_eq] at h
  rcases h with (h | rfl) | rfl
  · obtain ⟨hlow, hhigh⟩ := toNat_of_isDigit h
    simp only [isBlank, Bool.or_eq_false_iff, Bool.and_eq_false_iff, decide_eq_false_iff_not,
      beq_eq_false_iff_ne]
    omega
  · decide
  · decide

theorem dropWhile_isBlank {s : List Char} (h : ∀ c ∈ s, isMark c = true) :
    s.dropWhile isBlank = s := by
  cases s with
  | nil => rfl
  | cons c s =>
    rw [List.dropWhile_cons_of_neg]
    rw [isBlank_of_isMark (h c List.mem_cons_self)]
    exact Bool.false_ne_true

theorem trim_marks {s : List Char} (h : ∀ c ∈ s, isMark c = true) : trim s = s := by
  rw [trim, dropWhile_isBlank h, dropWhile_isBlank (by simpa using h), List.reverse_reverse]

end Text

namespace Literal
open Numeral

theorem digit?_of_isDigit {c : Char} (h : c.isDigit = true) :
    digit? c = some (c.toNat - '0'.toNat) :=
  if_pos (Char.isDigit_iff_toNat.mp h)

theorem isDigit_ten {c : Char} (h : c.isDigit = true) : isDigit 10 c = true := by
  have hvalue : c.toNat - '0'.toNat < 10 := Nat.sub_lt_left_of_lt_add
    (Text.toNat_of_isDigit h).1 (Nat.lt_succ_of_le (Text.toNat_of_isDigit h).2)
  rw [isDigit, digit?_of_isDigit h]
  exact decide_eq_true hvalue

theorem value_eq_ofDigitChars {s : List Char} (h : ∀ c ∈ s, c.isDigit = true) :
    value 10 s = Nat.ofDigitChars 10 s 0 := by
  rw [value]
  generalize 0 = n
  induction s generalizing n with
  | nil => rfl
  | cons c s ih =>
    obtain ⟨hc, hs⟩ := List.forall_mem_cons.mp h
    rw [List.foldl_cons, digit?_of_isDigit hc, Nat.ofDigitChars_cons, mul_comm]
    exact ih hs _

/-- Digits without a point are read as an integer. -/
theorem decimal?_digits {a : List Char} (ha : ∀ c ∈ a, c.isDigit = true) (hne : a ≠ [])
    (negative : Bool) :
    decimal? negative a = some (.ofDecimal negative (Nat.ofDigitChars 10 a 0) 0) := by
  have hall : ∀ c ∈ a, isDigit 10 c = true := fun c hc => isDigit_ten (ha c hc)
  have htake : a.takeWhile (isDigit 10) = a := List.takeWhile_eq_self_iff.mpr hall
  have hdrop : a.dropWhile (isDigit 10) = [] := List.dropWhile_eq_nil_iff.mpr hall
  simp [decimal?, htake, hdrop, hne, exponent?, value_eq_ofDigitChars ha]

/-- Digits with a point among them are read as a decimal. -/
theorem decimal?_point {a b : List Char} (ha : ∀ c ∈ a, c.isDigit = true) (hne : a ≠ [])
    (hb : ∀ c ∈ b, c.isDigit = true) (negative : Bool) :
    decimal? negative (a ++ '.' :: b) =
      some (.ofDecimal negative (Nat.ofDigitChars 10 (a ++ b) 0) (-b.length)) := by
  have halla : ∀ c ∈ a, isDigit 10 c = true := fun c hc => isDigit_ten (ha c hc)
  have hallb : ∀ c ∈ b, isDigit 10 c = true := fun c hc => isDigit_ten (hb c hc)
  have hpoint : isDigit 10 '.' = false := rfl
  have htake : (a ++ '.' :: b).takeWhile (isDigit 10) = a := by
    rw [List.takeWhile_append_of_pos halla, List.takeWhile_cons_of_neg (by simp [hpoint]),
      List.append_nil]
  have hdrop : (a ++ '.' :: b).dropWhile (isDigit 10) = '.' :: b := by
    rw [List.dropWhile_append_of_pos halla, List.dropWhile_cons_of_neg (by simp [hpoint])]
  have htakeb : b.takeWhile (isDigit 10) = b := List.takeWhile_eq_self_iff.mpr hallb
  have hdropb : b.dropWhile (isDigit 10) = [] := List.dropWhile_eq_nil_iff.mpr hallb
  have hab : ∀ c ∈ a ++ b, c.isDigit = true := List.forall_mem_append.mpr ⟨ha, hb⟩
  simp [decimal?, htake, hdrop, htakeb, hdropb, hne, exponent?, value_eq_ofDigitChars hab]

theorem underscoresFit_of_not_mem {s : List Char} (h : '_' ∉ s) {c : Char} (hc : c ≠ '_') :
    underscoresFit c s = true := by
  induction s generalizing c with
  | nil => simpa [underscoresFit] using hc
  | cons d s ih =>
    obtain ⟨hd, hs⟩ := not_or.mp (mt List.mem_cons.mpr h)
    rw [underscoresFit, ih hs (Ne.symm hd), if_neg (Ne.symm hd)]
    simp [hc]

/-- A text of digits, signs and points is read from its sign on: nothing is dropped from it. -/
theorem double?_marks {s digits : List Char} {negative : Bool} {c : Char}
    (h : ∀ d ∈ s, isMark d = true) (hsign : splitSign s = (negative, c :: digits))
    (hc : c.isDigit = true) : double? (Text.codes s) = decimal? negative (c :: digits) := by
  have hunderscore : '_' ∉ s := fun hmem => nomatch h _ hmem
  have hfilter : s.filter (· != '_') = s :=
    List.filter_eq_self.mpr (bne_of_not_mem hunderscore)
  have hlower : c.toLower = c := by
    have hnot : ¬ (c.val ≥ 'A'.val ∧ c.val ≤ 'Z'.val) := by
      rintro ⟨hletter, -⟩
      have hge : 65 ≤ c.toNat := hletter
      have hle := (Text.toNat_of_isDigit hc).2
      omega
    exact dif_neg hnot
  -- The names of infinity and nan start with letters.
  have hne {d : Char} (hd : d.isDigit = false) : c ≠ d := ne_of_isDigit hc hd
  rw [double?, Text.asciiNumeral_codes h, Text.trim_marks h,
    underscoresFit_of_not_mem hunderscore (by decide), hfilter, hsign]
  simp [hlower, hne]

theorem splitSign_digit {c : Char} (hc : c.isDigit = true) (s : List Char) :
    splitSign (c :: s) = (false, c :: s) := by
  unfold splitSign
  split
  · rename_i h
    cases h
    exact absurd rfl (ne_of_isDigit hc rfl)
  · rename_i h
    cases h
    exact absurd rfl (ne_of_isDigit hc rfl)
  · rfl

end Literal

namespace Decimal
open Double Numeral

/-- A decimal that reads as zero without a power being formed is below all ratios that do not. -/
theorem value_lt_of_tiny {d : Decimal} (hd : d.digits ≠ 0)
    (h : 31 * (d.digits.log2 + 1 : ℤ) + 100 * d.exponent < -33000) :
    d.value < 2 ^ (-1075 : ℤ) := by
  have hlog : (d.digits : ℚ) ≤ 2 ^ (d.digits.log2 + 1) := by exact_mod_cast Nat.lt_log2_self.le
  -- The bound counts 31 decimal places for 100 binary ones, so compare hundredth powers.
  have hpow : d.value ^ 100 < ((10 : ℚ) ^ (-330 : ℤ)) ^ 100 := calc
    d.value ^ 100 = (d.digits : ℚ) ^ 100 * (10 ^ d.exponent) ^ 100 := by rw [value, mul_pow]
    _ ≤ (2 ^ (d.digits.log2 + 1)) ^ 100 * (10 ^ d.exponent) ^ 100 := by gcongr
    _ = (2 ^ 100) ^ (d.digits.log2 + 1) * (10 ^ d.exponent) ^ 100 := by rw [pow_right_comm]
    _ ≤ (10 ^ 31) ^ (d.digits.log2 + 1) * (10 ^ d.exponent) ^ 100 := by
      gcongr
      norm_num
    _ = 10 ^ (31 * (d.digits.log2 + 1 : ℤ) + 100 * d.exponent) := by
      rw [zpow_add₀ (by norm_num), zpow_mul, mul_comm 100 d.exponent, zpow_mul]
      norm_cast
    _ < 10 ^ (-33000 : ℤ) := zpow_lt_zpow_right₀ (by norm_num) h
    _ = ((10 : ℚ) ^ (-330 : ℤ)) ^ 100 := by rw [← zpow_natCast, ← zpow_mul]; norm_num
  calc d.value < 10 ^ (-330 : ℤ) := lt_of_pow_lt_pow_left₀ 100 (by positivity) hpow
    _ = (10 ^ (-33 : ℤ)) ^ 10 := by rw [← zpow_natCast, ← zpow_mul]; rfl
    _ ≤ (2 ^ (-108 : ℤ)) ^ 10 := by
      gcongr
      norm_num
    _ = 2 ^ (-1080 : ℤ) := by rw [← zpow_natCast, ← zpow_mul]; rfl
    _ ≤ 2 ^ (-1075 : ℤ) := zpow_le_zpow_right₀ one_le_two (by decide)

/-- A decimal without zeros behind its digits is read as the double that it is nearest to. -/
theorem ofDecimal_of_nearest {d : Decimal} (he : d.exponent ≤ 0) {m : ℕ} {e : ℤ}
    {h : Canonical m e} (hm : m ≠ 0) (hd : d.nearest = finite false m e h) (negative : Bool) :
    ofDecimal negative d.digits d.exponent = finite negative m e h := by
  have hlarge : (2 : ℚ) ^ (-1075 : ℤ) < d.value := by
    rw [← ratio_value, ← isPositive_ofRatio (tenTo_pos _)]
    change d.nearest.IsPositive
    rw [hd]
    exact isPositive_finite.mpr hm
  have hdigits : d.digits ≠ 0 := digits_ne_zero (lt_trans (by positivity) hlarge)
  rw [ofDecimal, if_neg hdigits, if_neg (by omega),
    if_neg fun htiny => (value_lt_of_tiny hdigits htiny).not_gt hlarge]
  cases negative with
  | false => exact hd
  | true =>
    rw [← ofRatio_negate]
    exact congrArg Double.negate hd

end Decimal

namespace Numeral
open Double Decimal Literal

theorem IsLeastUnsigned.mem {s : List Char} (h : IsLeastUnsigned s) {c : Char} (hc : c ∈ s) :
    c.isDigit = true ∨ c = '.' := by
  cases h with
  | whole ha => exact .inl (ha.digits c hc)
  | point ha hb =>
    rcases List.mem_append.mp hc with hc | hc
    · exact .inl (ha.digits c hc)
    · rcases List.mem_cons.mp hc with hc | hc
      · exact .inr hc
      · exact .inl (hb.digits c hc)

theorem IsLeastUnsigned.marks {s : List Char} (h : IsLeastUnsigned s) :
    ∀ c ∈ s, isMark c = true := by
  intro c hc
  rcases h.mem hc with hdigit | rfl
  · simp [isMark, hdigit]
  · rfl

theorem IsLeastUnsigned.sign_not_mem {s : List Char} (h : IsLeastUnsigned s) : '-' ∉ s := by
  intro hc
  rcases h.mem hc with hdigit | hpoint
  · exact ne_of_isDigit hdigit rfl rfl
  · cases hpoint

theorem IsLeastUnsigned.exists_cons {s : List Char} (h : IsLeastUnsigned s) :
    ∃ c digits, s = c :: digits ∧ c.isDigit = true := by
  have hwhole {a : List Char} (ha : IsWhole a) :
      ∃ c digits, a = c :: digits ∧ c.isDigit = true := by
    cases a with
    | nil => exact absurd rfl ha.ne_nil
    | cons c a => exact ⟨c, a, rfl, ha.digits c List.mem_cons_self⟩
  cases h with
  | whole ha => exact hwhole ha
  | point ha hb =>
    obtain ⟨c, digits, rfl, hc⟩ := hwhole ha
    exact ⟨c, _, rfl, hc⟩

/-- An unsigned numeral is read as the decimal that it denotes. -/
theorem IsLeastUnsigned.read {s : List Char} (h : IsLeastUnsigned s) :
    ∃ d : Decimal, d.exponent ≤ 0 ∧ d.value = unsigned s ∧
      ∀ negative, decimal? negative s = some (ofDecimal negative d.digits d.exponent) := by
  cases h with
  | whole ha =>
    refine ⟨⟨Nat.ofDigitChars 10 s 0, 0⟩, le_rfl, ?_, decimal?_digits ha.digits ha.ne_nil⟩
    rw [unsigned_digits (ha.not_mem (by decide)), Decimal.value, zpow_zero, mul_one]
  | @point a b ha hb =>
    refine ⟨⟨Nat.ofDigitChars 10 (a ++ b) 0, -b.length⟩, by simp, ?_,
      decimal?_point ha.digits ha.ne_nil hb.digits⟩
    rw [unsigned_point (ha.not_mem (by decide)), Decimal.value, zpow_neg, zpow_natCast,
      div_eq_mul_inv]

/-- A numeral is read as the signed decimal that it denotes. -/
theorem IsLeast.read {t : List Char} (h : IsLeast t) :
    ∃ s, ∃ d : Decimal, d.exponent ≤ 0 ∧ denoted t = signFactor s * d.value ∧
      double? (Text.codes t) = some (ofDecimal s d.digits d.exponent) := by
  cases h with
  | unsigned hu =>
    obtain ⟨d, he, hvalue, hread⟩ := hu.read
    obtain ⟨c, digits, rfl, hc⟩ := hu.exists_cons
    refine ⟨false, d, he, ?_, ?_⟩
    · rw [denoted_unsigned hu.sign_not_mem, signFactor_false, one_mul, hvalue]
    · rw [double?_marks hu.marks (splitSign_digit hc digits) hc, hread]
  | negative hu =>
    obtain ⟨d, he, hvalue, hread⟩ := hu.read
    obtain ⟨c, digits, rfl, hc⟩ := hu.exists_cons
    refine ⟨true, d, he, ?_, ?_⟩
    · rw [denoted_negative, signFactor_true, neg_one_mul, hvalue]
    · rw [double?_marks (List.forall_mem_cons.mpr ⟨rfl, hu.marks⟩) rfl hc, hread]

end Numeral

namespace Double
open Decimal Numeral

theorem signFactor_ne_zero (s : Bool) : signFactor s ≠ 0 := by cases s <;> simp

/-- The number that a double other than zero is written as has a size, and decimals of this size are
nearest to the double without its sign. -/
theorem exists_written {s : Bool} {m : ℕ} {e : ℤ} (h : Canonical m e) (hm : m ≠ 0) :
    ∃ size : ℚ, 0 < size ∧ (finite s m e h).written = signFactor s * size ∧
      ∀ d : Decimal, d.value = size → d.nearest = finite false m e h := by
  rw [written]
  split
  · refine ⟨m * 2 ^ e, scaled_pos hm e, rfl, fun d hd => ?_⟩
    rw [nearest_congr (hd.trans (value_exact m e).symm), exact_nearest h hm]
  · refine ⟨_, value_shortest_pos h hm, rfl, fun d hd => ?_⟩
    rw [nearest_congr hd, nearest_shortest h hm]

/-- A numeral that denotes what a double other than zero is written as is read as the double. -/
theorem double?_of_written {s : Bool} {m : ℕ} {e : ℤ} (h : Canonical m e) (hm : m ≠ 0)
    {t : List Char} (ht : IsLeast t) (hden : denoted t = (finite s m e h).written) :
    Literal.double? (Text.codes t) = some (finite s m e h) := by
  obtain ⟨size, hpos, hwritten, hnearest⟩ := exists_written (s := s) h hm
  obtain ⟨r, d, he, hvalue, hread⟩ := ht.read
  have hsigned : signFactor r * d.value = signFactor s * size :=
    hvalue.symm.trans (hden.trans hwritten)
  have hdpos : 0 < d.value := by
    refine lt_of_le_of_ne (value_nonneg d) fun hzero => ?_
    rw [← hzero, mul_zero] at hsigned
    exact mul_ne_zero (signFactor_ne_zero s) hpos.ne' hsigned.symm
  obtain ⟨rfl, hd⟩ := (signFactor_mul_inj hdpos hpos).mp hsigned
  rw [hread, ofDecimal_of_nearest he hm (hnearest d hd)]

end Double

end PenPlotter
