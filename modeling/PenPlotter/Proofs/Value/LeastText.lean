import PenPlotter.Proofs.Number.Scientific
import PenPlotter.Proofs.Value.ReadBack
/-! # The texts of numbers are least and exact

Each number that can be written has a text in least form. Integers, and doubles that are integers, are
written as the integer; the text of any other double denotes what the general notation of the double
does, and has a point.
-/
namespace PenPlotter

namespace Double
open Decimal Numeral

/-- A text of a finite double: in least form, never the negative zero, with a point just where the
double is no integer. It denotes a double that is an integer exactly, and any other one as its general
notation does. It reads back as the double, but for the sign of zero. -/
structure LeastText (x : Double) (t : List Char) : Prop where
  least : IsLeast t
  ne_negative_zero : t ≠ ['-', '0']
  point : '.' ∈ t ↔ ∀ i : ℤ, x.exact ≠ i
  whole : ∀ i : ℤ, x.exact = i → denoted t = i
  fraction : (∀ i : ℤ, x.exact ≠ i) → denoted t = denotedGeneral x.general
  reads : x ≠ zero true → Literal.double? (Text.codes t) = some x

/-- The text of a double that is no integer has a point. It denotes what the general notation of the
double does. -/
theorem positional_of_fraction {s : Bool} {m : ℕ} {e : ℤ} {h : Canonical m e}
    (hi : (finite s m e h).isIntegral = false) :
    ∃ t, (finite s m e h).positional? = some t ∧ IsLeast t ∧ '.' ∈ t ∧
      denoted t = denotedGeneral (finite s m e h).general := by
  obtain ⟨a, b, ha, hb, hpos⟩ := positional_of_negative
    (shortest_mod h (mantissa_ne_zero hi)) (shortest_exponent h hi)
  obtain ⟨t, ht, -, hden⟩ := positional_written (s := s) h
  have htext : t = signText s ++ (a ++ '.' :: b) := by
    rw [positional?, hi, if_neg Bool.false_ne_true, hpos] at ht
    exact (Option.some.inj ht).symm
  refine ⟨t, ht, ?_, ?_, ?_⟩
  · rw [htext]
    cases s with
    | false => exact .unsigned (.point ha hb)
    | true => exact .negative (.point ha hb)
  · rw [htext]
    simp
  · rw [hden, written, hi, if_neg Bool.false_ne_true,
      denotedGeneral_finite h (mantissa_ne_zero hi)]

theorem eq_zero_of_mantissa {s : Bool} {e : ℤ} (h : Canonical 0 e) : finite s 0 e h = zero s := by
  rcases h.2.2.2 with hlead | rfl
  · exact absurd (Nat.eq_zero_of_le_zero hlead) (twoTo_pos 52).ne'
  · rfl

/-- The text of a double reads back as the double, unless it is the negative zero. -/
theorem reads_back {x : Double} (hx : x.isFinite = true) (hzero : x ≠ zero true) {t : List Char}
    (ht : x.positional? = some t) (hleast : IsLeast t) :
    Literal.double? (Text.codes t) = some x := by
  cases x with
  | finite s m e h =>
    obtain ⟨u, hu, -, hden⟩ := positional_written (s := s) h
    obtain rfl : t = u := Option.some.inj (ht.symm.trans hu)
    rcases Nat.eq_zero_or_pos m with rfl | hm
    · cases s with
      | false =>
        have hexact : (finite false 0 e h).exact = (0 : ℤ) := by simp [exact]
        obtain rfl : t = intText 0 := Option.some.inj (ht.symm.trans (positional_of_int h hexact))
        rw [eq_zero_of_mantissa h]
        decide
      | true => exact absurd (eq_zero_of_mantissa h) hzero
    · exact double?_of_written h hm.ne' hleast hden
  | infinite s => cases hx
  | nan p => cases hx

end Double

namespace Value
open Double Decimal Numeral

theorem writable_of_length {i : ℤ} (h : (natText i.natAbs).length ≤ digitLimit) :
    Decimal.writable i = true := by
  have hpos : 0 < digitLimit := by decide
  rw [Decimal.writable, decide_eq_true_eq]
  generalize digitLimit = limit at h hpos ⊢
  exact (Nat.length_toDigits_le_iff (by decide) hpos).mp h

/-- An integer that has not too many digits is written with them. -/
theorem numberText_int {i : ℤ} (h : (natText i.natAbs).length ≤ digitLimit) :
    (int i).numberText = .ok (intText i) := by
  rw [numberText, writeInt, if_pos (writable_of_length h)]

theorem numberText_finite {x : Double} (hx : x.isFinite = true) :
    ∃ t, (double x).numberText = .ok t ∧ x.LeastText t := by
  cases x with
  | finite s m e h =>
    cases hi : (finite s m e h).isIntegral with
    | false =>
      obtain ⟨t, ht, hleast, hpoint, hden⟩ := positional_of_fraction hi
      have hne : ∀ i : ℤ, (finite s m e h).exact ≠ i := exact_ne_int hi
      exact ⟨t, numberText_double ht, {
        least := hleast
        ne_negative_zero := by
          rintro rfl
          simp at hpoint
        point := iff_of_true hpoint hne
        whole := fun i hexact => absurd hexact (hne i)
        fraction := fun _ => hden
        reads := fun hzero => reads_back hx hzero ht hleast }⟩
    | true =>
      obtain ⟨i, -, hexact⟩ := truncate_exact h hi
      have ht := positional_of_int h hexact
      exact ⟨intText i, numberText_double ht, {
        least := isLeast_intText i
        ne_negative_zero := intText_ne_negative_zero i
        point := iff_of_false (point_not_mem_intText i) fun hne => hne i hexact
        whole := fun j hj => by rw [denoted_intText, ← hexact, hj]
        fraction := fun hne => absurd hexact (hne i)
        reads := fun hzero => reads_back hx hzero ht (isLeast_intText i) }⟩
  | infinite s => cases hx
  | nan p => cases hx

theorem isLeast_positional {x : Double} {t : List Char} (h : x.positional? = some t) :
    IsLeast t := by
  cases x with
  | finite s m e hc =>
    obtain ⟨u, hu, hleast⟩ := numberText_finite (x := .finite s m e hc) rfl
    rw [numberText_double h] at hu
    cases hu
    exact hleast.least
  | infinite s => cases h
  | nan p => cases h

/-- Whatever a value is, the text that it has as a number is in least form. -/
theorem isLeast_numberText {v : Value} {t : List Char} (h : v.numberText = .ok t) : IsLeast t := by
  have hint {i : ℤ} (hi : writeInt i = .ok t) : IsLeast t := by
    unfold writeInt at hi
    split at hi
    · cases hi
      exact isLeast_intText i
    · cases hi
  cases v with
  | bool b => exact hint h
  | int i => exact hint h
  | _ =>
    -- all others are taken as doubles first, and a double that is not finite has no text
    obtain ⟨x, -, hx⟩ := bind_eq_ok.mp h
    cases hpos : x.positional? with
    | some s =>
      rw [hpos] at hx
      cases hx
      exact isLeast_positional hpos
    | none =>
      rw [hpos] at hx
      obtain ⟨_, -, hx⟩ := bind_eq_ok.mp hx
      cases hx

/-- Infinities and nans are not written. -/
theorem numberText_not_finite {x : Double} (hx : x.isFinite = false) :
    (double x).numberText = .error (.notFinite x.general) := by
  cases x with
  | finite s m e h => cases hx
  | infinite s => rfl
  | nan p => rfl

/-- The numbers in the plotter's stream have texts in least form, and what is not finite has none. -/
theorem numberText_least :
    (∀ i : ℤ, (natText i.natAbs).length ≤ 4300 →
      ∃ t, (int i).numberText = .ok t ∧ IsLeast t ∧ t ≠ ['-', '0'] ∧ '.' ∉ t ∧ denoted t = i) ∧
    (∀ x : Double, x.isFinite = true → ∃ t, (double x).numberText = .ok t ∧ x.LeastText t) ∧
    (∀ x : Double, x.isFinite = false →
      ∃ f, (double x).numberText = .error f ∧ f.kind = .value) := by
  refine ⟨fun i hi => ?_, fun x hx => numberText_finite hx, fun x hx => ?_⟩
  · exact ⟨intText i, numberText_int hi, isLeast_intText i, intText_ne_negative_zero i,
      point_not_mem_intText i, denoted_intText i⟩
  · exact ⟨_, numberText_not_finite hx, rfl⟩

/-- A negative integer, a double that messages show with an exponent, and a nan. -/
theorem numberText_least_tiny :
    ((natText 120).length ≤ 4300 ∧ ∃ t, (int (-120)).numberText = .ok t ∧ denoted t = -120) ∧
    ((ofDecimal false 1 (-7)).isFinite = true ∧ (ofDecimal false 1 (-7)).general = "1e-07".toList ∧
      (ofDecimal false 1 (-7)).LeastText "0.0000001".toList) ∧
    ((nan 0).isFinite = false ∧ ∃ f, (double (nan 0)).numberText = .error f ∧ f.kind = .value) := by
  obtain ⟨hints, hdoubles, hothers⟩ := numberText_least
  have hfinite : (ofDecimal false 1 (-7)).isFinite = true := by decide +kernel
  refine ⟨⟨by decide, ?_⟩, ⟨hfinite, by decide +kernel, ?_⟩, rfl, hothers _ rfl⟩
  · obtain ⟨t, ht, -, -, -, hden⟩ := hints (-120) (by decide)
    exact ⟨t, ht, by simpa using hden⟩
  · obtain ⟨t, ht, hleast⟩ := hdoubles _ hfinite
    have htext : (double (ofDecimal false 1 (-7))).numberText.toOption =
        some "0.0000001".toList := by decide +kernel
    rw [ht] at htext
    cases htext
    exact hleast

end Value

end PenPlotter
