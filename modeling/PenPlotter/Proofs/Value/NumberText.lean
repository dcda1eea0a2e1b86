import PenPlotter.Proofs.Number.Shortest
import PenPlotter.Proofs.Result
import PenPlotter.Value.Number
/-! # The texts of numbers

Numbers that can be written are booleans, integers of few enough digits and finite doubles. Each has a
text of digits, a sign and a point, and two of them have the same text just where they are equal.
-/
namespace PenPlotter
open Text

namespace Numeral

def isMark (c : Char) : Bool := c.isDigit || c == '-' || c == '.'

theorem isMark_ascii {c : Char} (h : isMark c = true) : c.toNat < 128 := by
  simp only [isMark, Bool.or_eq_true, beq_iff_eq] at h
  rcases h with (h | rfl) | rfl
  · exact (Char.isDigit_iff_toNat.mp h).2.trans_lt (by decide)
  · decide
  · decide

def Plain (s : List Char) : Prop := s ≠ [] ∧ ∀ c ∈ s, isMark c = true

theorem Plain.not_mem {s : List Char} (h : Plain s) {c : Char} (hc : isMark c = false) : c ∉ s := by
  intro hmem
  rw [h.2 c hmem] at hc
  cases hc

theorem Plain.cons {s : List Char} {c : Char} (hc : isMark c = true) (h : ∀ d ∈ s, isMark d = true) :
    Plain (c :: s) :=
  ⟨List.cons_ne_nil c s, List.forall_mem_cons.mpr ⟨hc, h⟩⟩

end Numeral

namespace Decimal
open Numeral

theorem plain_natText (n : ℕ) : Plain (natText n) :=
  ⟨natText_ne_nil n, fun c hc => by simp [isMark, isDigit_natText hc]⟩

theorem plain_intText (i : ℤ) : Plain (intText i) := by
  unfold intText
  split
  · exact .cons rfl (plain_natText _).2
  · exact plain_natText _

theorem plain_positional (d : Decimal) : Plain d.positional := by
  refine ⟨positional_ne_nil d, fun c hc => ?_⟩
  rcases mem_positional hc with h | rfl
  · simp [isMark, h]
  · rfl

end Decimal

namespace Double
open Decimal Numeral

/-- A finite double has a text, which denotes the number that it is written as. -/
theorem positional_written {s : Bool} {m : ℕ} {e : ℤ} (h : Canonical m e) :
    ∃ t, (finite s m e h).positional? = some t ∧ Plain t ∧
      denoted t = (finite s m e h).written := by
  cases hi : (finite s m e h).isIntegral
  · have hplain := plain_positional (shortest m e)
    have hvalue := denoted_positional (shortest m e)
    refine ⟨_, by rw [positional?, hi, if_neg Bool.false_ne_true], ?_⟩
    rw [written, hi, if_neg Bool.false_ne_true, ← hvalue]
    cases s with
    | false =>
      rw [signFactor_false, one_mul, signText, if_neg Bool.false_ne_true, List.nil_append]
      exact ⟨hplain, rfl⟩
    | true =>
      rw [signFactor_true, neg_one_mul, signText, if_pos rfl, List.singleton_append,
        denoted_negative, denoted_unsigned (not_mem_positional (by decide) (by decide))]
      exact ⟨.cons rfl hplain.2, rfl⟩
  · obtain ⟨i, htrunc, hexact⟩ := truncate_exact h hi
    refine ⟨intText i, by rw [positional?, hi, if_pos rfl, htrunc]; rfl, plain_intText i, ?_⟩
    rw [denoted_intText, written, hi, if_pos rfl, hexact]

/-- The text of a double that is an integer is that of the integer. -/
theorem positional_of_int {s : Bool} {m : ℕ} {e : ℤ} (h : Canonical m e) {i : ℤ}
    (hi : (finite s m e h).exact = i) : (finite s m e h).positional? = some (intText i) := by
  have hint := isIntegral_of_exact h hi
  obtain ⟨j, htrunc, hj⟩ := truncate_exact h hint
  have hij : j = i := by exact_mod_cast hj.symm.trans hi
  rw [positional?, hint, if_pos rfl, htrunc, hij]
  rfl

end Double

namespace Value
open Double Numeral

def Numeric : Value → Prop
  | .bool _ => True
  | .int i => Decimal.writable i = true
  | .double x => x.isFinite = true
  | _ => False

def written : Value → ℚ
  | .bool b => b.toInt
  | .int i => i
  | .double x => x.written
  | _ => 0

theorem numberText_double {x : Double} {t : List Char} (h : x.positional? = some t) :
    (Value.double x).numberText = .ok t := by
  simp only [numberText, toDouble, bind, Except.bind, h]
  rfl

/-- A number that can be written has a text, which denotes what it is written as. -/
theorem numberText_numeric {v : Value} (h : v.Numeric) :
    ∃ t, v.numberText = .ok t ∧ Plain t ∧ denoted t = v.written := by
  cases v with
  | bool b =>
    refine ⟨Decimal.intText b.toInt, ?_, Decimal.plain_intText _, Decimal.denoted_intText _⟩
    rw [numberText, writeInt, if_pos (Decimal.writable_of_lt (k := 1) (by decide) ?_)]
    cases b <;> decide
  | int i =>
    have hw : Decimal.writable i = true := h
    refine ⟨Decimal.intText i, ?_, Decimal.plain_intText _, Decimal.denoted_intText _⟩
    rw [numberText, writeInt, if_pos hw]
  | double x =>
    cases x with
    | finite s m e hc =>
      obtain ⟨t, ht, hplain, hden⟩ := positional_written (s := s) hc
      exact ⟨t, numberText_double ht, hplain, hden⟩
    | infinite s => cases h
    | nan p => cases h
  | _ => cases h

theorem numberText_of_int {v : Value} (h : v.Numeric) {i : ℤ} (hi : v.written = i) :
    v.numberText = .ok (Decimal.intText i) := by
  cases v with
  | bool b =>
    have hb : b.toInt = i := Int.cast_injective (α := ℚ) hi
    rw [numberText, writeInt, hb, if_pos (Decimal.writable_of_lt (k := 1) (by decide) ?_)]
    rw [← hb]
    cases b <;> decide
  | int j =>
    have hw : Decimal.writable j = true := h
    have hj : j = i := Int.cast_injective (α := ℚ) hi
    rw [numberText, writeInt, if_pos hw, hj]
  | double x =>
    cases x with
    | finite s m e hc => exact numberText_double (positional_of_int hc ((written_eq_int hc i).mp hi))
    | infinite s => cases h
    | nan p => cases h
  | _ => cases h

theorem double_of_not_int {v : Value} (h : v.Numeric) (hi : ∀ i : ℤ, v.written ≠ i) :
    ∃ s m e, ∃ hc : Canonical m e, v = .double (finite s m e hc) ∧ m ≠ 0 := by
  cases v with
  | bool b => exact absurd rfl (hi b.toInt)
  | int i => exact absurd rfl (hi i)
  | double x =>
    cases x with
    | finite s m e hc =>
      refine ⟨s, m, e, hc, rfl, ?_⟩
      rintro rfl
      refine hi 0 ((written_eq_int hc 0).mpr ?_)
      simp [exact]
    | infinite s => cases h
    | nan p => cases h
  | _ => cases h

theorem numberText_congr {v w : Value} (hv : v.Numeric) (hw : w.Numeric)
    (h : v.written = w.written) : v.numberText = w.numberText := by
  -- Integers of all kinds share the integer's text; what is left are two doubles, which are one.
  by_cases hi : ∃ i : ℤ, v.written = i
  · obtain ⟨i, hi⟩ := hi
    rw [numberText_of_int hv hi, numberText_of_int hw (h.symm.trans hi)]
  · have hi' : ∀ i : ℤ, v.written ≠ i := fun i hv => hi ⟨i, hv⟩
    obtain ⟨s, m, e, hc, rfl, hm⟩ := double_of_not_int hv hi'
    obtain ⟨t, n, f, hd, rfl, hn⟩ := double_of_not_int hw fun i hw => hi' i (h.trans hw)
    rw [eq_of_exact hm hn ((written_eq_written hc hd).mp h)]

theorem compareInt_written {x : Double} (hx : x.isFinite = true) (i : ℤ) :
    (x.compareInt i == some .eq) = true ↔ x.written = i := by
  cases x with
  | finite s m e hc =>
    rw [compareInt_eq hc, beq_iff_eq, Option.some.injEq, compare_eq_iff_eq, written_eq_int hc]
  | infinite s => cases hx
  | nan p => cases hx

theorem same_double_iff {x y : Double} (hx : x.isFinite = true) (hy : y.isFinite = true) :
    (double x).same (double y) = true ↔ x.written = y.written := by
  cases x with
  | finite s m e hc =>
    cases y with
    | finite t n f hd =>
      simp only [same, Bool.or_eq_true, beq_iff_eq, numEq_finite hc hd, written_eq_written hc hd]
      exact or_iff_right_of_imp fun heq => by rw [heq]
    | infinite s => cases hy
    | nan p => cases hy
  | infinite s => cases hx
  | nan p => cases hx

/-- Numbers that can be written are equal just where they are written as the same number. -/
theorem same_iff_written {v w : Value} (hv : v.Numeric) (hw : w.Numeric) :
    v.same w = true ↔ v.written = w.written := by
  cases v with
  | bool a =>
    cases w with
    | bool b => cases a <;> cases b <;> simp [same, written]
    | int j =>
      simp only [same, written, beq_iff_eq]
      rw [eq_comm, Int.cast_inj]
    | double y =>
      simp only [same, written]
      rw [compareInt_written hw, eq_comm]
    | _ => cases hw
  | int i =>
    cases w with
    | bool b =>
      simp only [same, written, beq_iff_eq, Int.cast_inj]
    | int j => simp only [same, written, beq_iff_eq, Int.cast_inj]
    | double y =>
      simp only [same, written]
      rw [compareInt_written hw, eq_comm]
    | _ => cases hw
  | double x =>
    cases w with
    | bool b =>
      simp only [same, written]
      exact compareInt_written hv b.toInt
    | int j =>
      simp only [same, written]
      exact compareInt_written hv j
    | double y => exact same_double_iff hv hw
    | _ => cases hw
  | _ => cases hv

theorem exists_texts {vs : List Value} (h : ∀ v ∈ vs, v.Numeric) :
    ∃ texts, vs.mapM numberText = .ok texts ∧ (∀ t ∈ texts, Plain t) ∧
      texts.map denoted = vs.map written := by
  induction vs with
  | nil => exact ⟨[], rfl, by simp, rfl⟩
  | cons v vs ih =>
    obtain ⟨hv, hvs⟩ := List.forall_mem_cons.mp h
    obtain ⟨t, ht, hplain, hden⟩ := numberText_numeric hv
    obtain ⟨texts, htexts, hplains, hdens⟩ := ih hvs
    rw [mapM_eq_ok] at htexts
    refine ⟨t :: texts, ?_, List.forall_mem_cons.mpr ⟨hplain, hplains⟩, ?_⟩
    · rw [mapM_eq_ok, List.map_cons, List.map_cons, ht, htexts]
    · rw [List.map_cons, List.map_cons, hden, hdens]

/-- Lists of numbers have the same texts just where they are written as the same numbers. -/
theorem texts_eq_iff {vs ws : List Value} {ts us : List (List Char)} (hv : ∀ v ∈ vs, v.Numeric)
    (hw : ∀ w ∈ ws, w.Numeric) (ht : vs.mapM numberText = .ok ts)
    (hu : ws.mapM numberText = .ok us) : ts = us ↔ vs.map written = ws.map written := by
  constructor
  · rintro rfl
    obtain ⟨texts, htexts, -, hden⟩ := exists_texts hv
    obtain ⟨texts', htexts', -, hden'⟩ := exists_texts hw
    rw [ht] at htexts
    rw [hu] at htexts'
    cases htexts
    cases htexts'
    rw [← hden, ← hden']
  · intro h
    rw [mapM_eq_ok] at ht hu
    refine map_ok_injective (ε := Fault) ?_
    rw [← ht, ← hu]
    clear ht hu
    induction vs generalizing ws with
    | nil =>
      cases ws with
      | nil => rfl
      | cons w ws => simp at h
    | cons v vs ih =>
      cases ws with
      | nil => simp at h
      | cons w ws =>
        obtain ⟨hv, hvs⟩ := List.forall_mem_cons.mp hv
        obtain ⟨hw, hws⟩ := List.forall_mem_cons.mp hw
        rw [List.map_cons, List.map_cons, List.cons.injEq] at h
        rw [List.map_cons, List.map_cons, numberText_congr hv hw h.1, ih hvs hws h.2]

end Value

end PenPlotter
