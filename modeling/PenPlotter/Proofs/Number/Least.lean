import PenPlotter.Proofs.Number.Shortest
/-! # Numerals without superfluous zeros

A numeral in least form has no zero in front of other digits, none at the end behind its point, no
point without digits behind it, no plus sign and no exponent. The texts of integers have this form, and
so has the positional text of a decimal whose digits do not end in a zero; it has a point just where
the exponent is negative.
-/
namespace PenPlotter

namespace Numeral

/-- Digits in front of a point: a zero alone, or digits of which the first is not zero. -/
structure IsWhole (s : List Char) : Prop where
  digits : ∀ c ∈ s, c.isDigit = true
  leading : s = ['0'] ∨ ∃ c, s.head? = some c ∧ c ≠ '0'

/-- Digits behind a point: the last one is not zero. -/
structure IsFraction (s : List Char) : Prop where
  digits : ∀ c ∈ s, c.isDigit = true
  trailing : ∃ c, s.getLast? = some c ∧ c ≠ '0'

inductive IsLeastUnsigned : List Char → Prop
  | whole {a : List Char} (ha : IsWhole a) : IsLeastUnsigned a
  | point {a b : List Char} (ha : IsWhole a) (hb : IsFraction b) : IsLeastUnsigned (a ++ '.' :: b)

inductive IsLeast : List Char → Prop
  | unsigned {s : List Char} (h : IsLeastUnsigned s) : IsLeast s
  | negative {s : List Char} (h : IsLeastUnsigned s) : IsLeast ('-' :: s)

theorem IsWhole.ne_nil {s : List Char} (h : IsWhole s) : s ≠ [] := by
  rintro rfl
  simpa using h.leading

theorem IsWhole.not_mem {s : List Char} (h : IsWhole s) {c : Char} (hc : c.isDigit = false) :
    c ∉ s :=
  fun hmem => ne_of_isDigit (h.digits c hmem) hc rfl

end Numeral

namespace Decimal
open Numeral

theorem digitChar_eq_zero_iff {n : ℕ} (hn : n < 10) : n.digitChar = '0' ↔ n = 0 := by
  constructor
  · intro h
    have hval := Nat.toNat_digitChar_of_lt_ten hn
    rw [h] at hval
    have hzero : '0'.toNat = 48 := rfl
    omega
  · rintro rfl
    rfl

/-- The digits of a number do not start with a zero, unless the number is zero. -/
theorem head?_natText {n : ℕ} (hn : n ≠ 0) : ∃ c, (natText n).head? = some c ∧ c ≠ '0' := by
  induction n using Nat.strongRecOn with
  | _ n ih =>
    rw [natText]
    rcases Nat.lt_or_ge n 10 with hlt | hge
    · rw [Nat.toDigits_of_lt_base hlt]
      exact ⟨_, rfl, fun h => hn ((digitChar_eq_zero_iff hlt).mp h)⟩
    · obtain ⟨c, hc, hne⟩ := ih (n / 10) (by omega) (by omega)
      rw [natText] at hc
      rw [Nat.toDigits_of_base_le (by decide) hge, List.head?_append, hc]
      exact ⟨c, rfl, hne⟩

/-- The last digit of a number is its remainder. -/
theorem getLast?_natText (n : ℕ) : (natText n).getLast? = some (n % 10).digitChar := by
  rw [natText]
  rcases Nat.lt_or_ge n 10 with hlt | hge
  · rw [Nat.toDigits_of_lt_base hlt, Nat.mod_eq_of_lt hlt]
    rfl
  · rw [Nat.toDigits_of_base_le (by decide) hge, List.getLast?_append]
    rfl

theorem isWhole_natText (n : ℕ) : IsWhole (natText n) where
  digits _ := isDigit_natText
  leading := by
    rcases Nat.eq_zero_or_pos n with rfl | hn
    · exact .inl (Nat.toDigits_zero 10)
    · exact .inr (head?_natText hn.ne')

theorem isFraction_of_ends {n : ℕ} (hn : n % 10 ≠ 0) {s : List Char}
    (hs : ∀ c ∈ s, c.isDigit = true) (hlast : s.getLast? = (natText n).getLast?) : IsFraction s where
  digits := hs
  trailing := ⟨_, hlast.trans (getLast?_natText n),
    fun h => hn ((digitChar_eq_zero_iff (Nat.mod_lt n (by decide))).mp h)⟩

theorem isLeast_intText (i : ℤ) : IsLeast (intText i) := by
  unfold intText
  split
  · exact .negative (.whole (isWhole_natText _))
  · exact .unsigned (.whole (isWhole_natText _))

theorem intText_ne_negative_zero (i : ℤ) : intText i ≠ ['-', '0'] := by
  intro h
  have hden := congrArg denoted h
  rw [denoted_intText, denoted_negative, show unsigned ['0'] = 0 by decide +kernel, neg_zero,
    Int.cast_eq_zero] at hden
  rw [hden] at h
  revert h
  decide

theorem point_not_mem_intText (i : ℤ) : '.' ∉ intText i := by
  have hdigits : '.' ∉ natText i.natAbs := not_mem_natText (by decide)
  unfold intText
  split <;> simpa using hdigits

/-- A decimal whose digits do not end in a zero, with digits behind the point. -/
theorem positional_of_negative {d : Decimal} (hd : d.digits % 10 ≠ 0) (he : d.exponent < 0) :
    ∃ a b, IsWhole a ∧ IsFraction b ∧ d.positional = a ++ '.' :: b := by
  have hdigits {c : Char} (hc : c ∈ natText d.digits) : c.isDigit = true := isDigit_natText hc
  rw [positional, if_neg (by omega)]
  dsimp only
  split
  · -- The point stands among the digits, which keep their first and their last one.
    rename_i hlt
    obtain ⟨c, hc, hne⟩ := head?_natText (n := d.digits) (by rintro h; simp [h] at hd)
    have htake : (natText d.digits).length - (-d.exponent).toNat ≠ 0 := by omega
    refine ⟨_, _, ⟨fun c hc => hdigits (List.mem_of_mem_take hc), .inr ⟨c, ?_, hne⟩⟩, ?_, rfl⟩
    · rw [List.head?_take, if_neg htake, hc]
    · refine isFraction_of_ends hd (fun c hc => hdigits (List.mem_of_mem_drop hc)) ?_
      rw [List.getLast?_drop, if_neg (by omega)]
  · refine ⟨['0'], _, ⟨List.forall_mem_singleton.mpr rfl, .inl rfl⟩, ?_, rfl⟩
    refine isFraction_of_ends hd (fun c hc => ?_) ?_
    · rcases List.mem_append.mp hc with hc | hc
      · rw [List.eq_of_mem_replicate hc]
        rfl
      · exact hdigits hc
    · change (List.replicate _ '0' ++ natText d.digits).getLast? = _
      rw [List.getLast?_append, getLast?_natText]
      rfl

/-- Stripped digits do not end in a zero. -/
theorem strip_mod {n : ℕ} (hn : n ≠ 0) (e : ℤ) : (strip n e).digits % 10 ≠ 0 := by
  induction n using Nat.strongRecOn generalizing e with
  | _ n ih =>
    rw [strip]
    split
    · rename_i h
      exact ih (n / 10) (Nat.div_lt_self (Nat.pos_of_ne_zero hn) (by decide)) (by omega) (e + 1)
    · rename_i h
      exact fun hmod => h ⟨hn, hmod⟩

theorem digits_ne_zero {d : Decimal} (h : 0 < d.value) : d.digits ≠ 0 := by
  intro hzero
  simp [value, hzero] at h

theorem exists_strip (m : ℕ) (e : ℤ) : ∃ n k, shortest m e = strip n k := ⟨_, _, rfl⟩

theorem shortest_mod {m : ℕ} {e : ℤ} (h : Double.Canonical m e) (hm : m ≠ 0) :
    (shortest m e).digits % 10 ≠ 0 := by
  have hpos := value_shortest_pos h hm
  obtain ⟨n, k, hstrip⟩ := exists_strip m e
  rw [hstrip] at hpos ⊢
  refine strip_mod (fun hzero => ?_) k
  rw [value_strip, hzero] at hpos
  simp at hpos

/-- The shortest decimal of a double that is no integer has digits behind the point. -/
theorem shortest_exponent {m : ℕ} {e : ℤ} (h : Double.Canonical m e)
    (hi : (Double.finite false m e h).isIntegral = false) : (shortest m e).exponent < 0 := by
  by_contra hnonneg
  rw [not_lt] at hnonneg
  have hnat : (shortest m e).value =
      ((shortest m e).digits * 10 ^ (shortest m e).exponent.toNat : ℕ) := by
    rw [value, ← pow_toNat_div, Int.toNat_of_nonpos (by omega : -(shortest m e).exponent ≤ 0)]
    simp
  have hint := isIntegral_of_shortest h (Double.mantissa_ne_zero hi) hnat
  rw [hi] at hint
  cases hint

end Decimal

end PenPlotter
