import PenPlotter.Plot.Setup
import PenPlotter.Proofs.Result
import PenPlotter.Proofs.Text.Separated
import PenPlotter.Proofs.Value.NumberText
import PenPlotter.Proofs.Value.Shown
/-! # The texts of instructions

An instruction of which all numbers are integers of few enough digits has a frame. Between the letter and
the closing colon of the frame stand only signs, digits and semicolons.
-/
namespace PenPlotter
open Text Numeral

def Value.IsInteger : Value → Prop
  | .int i => Decimal.writable i = true
  | _ => False

theorem Value.text_int {i : ℤ} (h : Decimal.writable i = true) :
    (Value.int i).text = .ok (Decimal.intText i) := by
  simp [text, textCodes, writeInt, h, bind, Except.bind, pure, Except.pure,
    escapeHalves_codes]

theorem Value.text_integer {v : Value} (h : v.IsInteger) : ∃ t, v.text = .ok t ∧ Plain t := by
  cases v with
  | int i => exact ⟨Decimal.intText i, text_int h, Decimal.plain_intText i⟩
  | _ => cases h

def Handshake.Writable : Handshake → Prop
  | .enqAck block enq _ => block.IsInteger ∧ enq.IsInteger
  | .xonXoff threshold _ => threshold.IsInteger

def Extended.Writable (e : Extended) : Prop := e.delay = .null ∨ e.delay.IsInteger

def Instruction.Writable : Instruction → Prop
  | .config _ => True
  | .handshake _ h => h.Writable
  | .extended e => e.Writable

def isParameter (c : Char) : Bool := isMark c || c == ';'

theorem Numeral.Plain.isParameter {t : List Char} (h : Plain t) :
    ∀ c ∈ t, PenPlotter.isParameter c = true := fun c hc => by
  simp [PenPlotter.isParameter, h.2 c hc]

theorem isParameter_byteList (bytes : Bytes) : ∀ c ∈ byteList bytes, isParameter c = true := by
  intro c hc
  rcases mem_intercalate hc with rfl | ⟨t, ht, hct⟩
  · rfl
  · obtain ⟨b, -, rfl⟩ := List.mem_map.mp ht
    exact (Decimal.plain_natText b.toNat).isParameter c hct

theorem Handshake.text_writable {h : Handshake} (hw : h.Writable) :
    ∃ s, h.text = .ok s ∧ ∀ c ∈ s, isParameter c = true := by
  cases h with
  | enqAck block enq answer =>
    obtain ⟨s, hs, hsplain⟩ := Value.text_integer hw.1
    obtain ⟨t, ht, htplain⟩ := Value.text_integer hw.2
    refine ⟨s ++ ';' :: t ++ ';' :: byteList answer, ?_, ?_⟩
    · rw [text, hs, ht]
      rfl
    · simp only [List.forall_mem_append, List.forall_mem_cons]
      exact ⟨⟨hsplain.isParameter, rfl, htplain.isParameter⟩, rfl, isParameter_byteList answer⟩
  | xonXoff threshold triggers =>
    obtain ⟨s, hs, hsplain⟩ := Value.text_integer hw
    refine ⟨s ++ ';' :: ';' :: byteList triggers, ?_, ?_⟩
    · rw [text, hs]
      rfl
    · simp only [List.forall_mem_append, List.forall_mem_cons]
      exact ⟨hsplain.isParameter, rfl, rfl, isParameter_byteList triggers⟩

theorem Extended.text_writable {e : Extended} (hw : e.Writable) :
    ∃ s, e.text = .ok s ∧ ∀ c ∈ s, isParameter c = true := by
  rcases e with ⟨delay, triggers⟩
  rcases hw with hnull | hint
  · refine ⟨';' :: byteList triggers, ?_, ?_⟩
    · cases hnull
      rfl
    · exact List.forall_mem_cons.mpr ⟨rfl, isParameter_byteList triggers⟩
  · obtain ⟨s, hs, hsplain⟩ := Value.text_integer hint
    refine ⟨s ++ ';' :: byteList triggers, ?_, ?_⟩
    · cases delay with
      | null => cases hint
      | int i =>
        simp only [text, hs]
        rfl
      | _ => cases hint
    · simp only [List.forall_mem_append, List.forall_mem_cons]
      exact ⟨hsplain.isParameter, rfl, isParameter_byteList triggers⟩

namespace Instruction

theorem text_writable {i : Instruction} (hw : i.Writable) :
    ∃ letter s, letter ∈ ['@', 'H', 'I', 'N'] ∧ i.text = .ok (letter :: s) ∧
      ∀ c ∈ s, isParameter c = true := by
  cases i with
  | config c =>
    refine ⟨'@', ';' :: c.text, by decide, rfl, List.forall_mem_cons.mpr ⟨rfl, ?_⟩⟩
    exact (Decimal.plain_natText c.value).isParameter
  | handshake mode h =>
    obtain ⟨s, hs, hchars⟩ := h.text_writable hw
    refine ⟨mode.letter, s, by cases mode <;> decide, ?_, hchars⟩
    rw [text, hs]
    rfl
  | extended e =>
    obtain ⟨s, hs, hchars⟩ := e.text_writable hw
    refine ⟨'N', s, by decide, ?_, hchars⟩
    rw [text, hs]
    rfl

theorem text_chars {i : Instruction} (hw : i.Writable) {s : List Char} (hs : i.text = .ok s) :
    ∀ c ∈ s, c.toNat < 128 ∧ c ≠ ':' := by
  obtain ⟨letter, t, hletter, htext, hchars⟩ := text_writable hw
  obtain rfl : letter :: t = s := Except.ok.inj (htext.symm.trans hs)
  refine List.forall_mem_cons.mpr ⟨?_, fun c hc => ?_⟩
  · simp only [List.mem_cons, List.not_mem_nil, or_false] at hletter
    rcases hletter with rfl | rfl | rfl | rfl <;> decide
  · have hc := hchars c hc
    simp only [isParameter, Bool.or_eq_true, beq_iff_eq] at hc
    rcases hc with hmark | rfl
    · exact ⟨isMark_ascii hmark, by rintro rfl; cases hmark⟩
    · decide

theorem frame_writable {i : Instruction} (hw : i.Writable) :
    ∃ s, i.text = .ok s ∧ i.frame = .ok (0x1b :: 0x2e :: asciiBytes s ++ [0x3a]) := by
  obtain ⟨letter, s, -, htext, -⟩ := text_writable hw
  refine ⟨letter :: s, htext, ?_⟩
  have hall : (letter :: s).all (fun c => decide (c.toNat < 128)) = true :=
    List.all_eq_true.mpr fun c hc => decide_eq_true (text_chars hw htext c hc).1
  rw [frame, htext]
  change wrap (letter :: s) = _
  rw [wrap, encodeAscii, if_pos hall]
  rfl

end Instruction

end PenPlotter
