import Mathlib.Data.List.TakeWhile
import PenPlotter.CommandLine.Outcome
/-! # What is left of a text in print

Control sequences are made of ASCII characters, so whatever else a text has is still there in print. A
sequence starts with an escape: what stands before the first one stays as it is.
-/
namespace PenPlotter.Text

def Code.isAscii : Code → Bool
  | .char c => decide (c.toNat < 128)
  | .half _ => false

def IsAscii (s : List Char) : Prop := ∀ c ∈ s, c.toNat < 128

instance (s : List Char) : Decidable (IsAscii s) := List.decidableBAll _ s

namespace IsAscii
variable {s t : List Char}

theorem append_iff : IsAscii (s ++ t) ↔ IsAscii s ∧ IsAscii t := List.forall_mem_append

theorem append (hs : IsAscii s) (ht : IsAscii t) : IsAscii (s ++ t) := append_iff.mpr ⟨hs, ht⟩

theorem cons {c : Char} (hc : c.toNat < 128) (hs : IsAscii s) : IsAscii (c :: s) :=
  List.forall_mem_cons.mpr ⟨hc, hs⟩

theorem of_subset (hs : IsAscii s) (h : t ⊆ s) : IsAscii t := fun c hc => hs c (h hc)

end IsAscii

theorem isAlpha_ascii {c : Char} (h : c.isAlpha = true) : c.toNat < 128 := by
  rcases Bool.or_eq_true_iff.mp h with hupper | hlower
  · have hlast : c.val ≤ 'Z'.val := (of_decide_eq_true hupper).2
    exact Nat.lt_of_le_of_lt (UInt32.le_iff_toNat_le.mp hlast) (by decide)
  · have hlast : c.val ≤ 'z'.val := of_decide_eq_true (Bool.and_eq_true_iff.mp hlower).2
    exact Nat.lt_of_le_of_lt (UInt32.le_iff_toNat_le.mp hlast) (by decide)

theorem isSequenceParameter_ascii {x : Code} (h : isSequenceParameter x = true) :
    x.isAscii = true := by
  cases x with
  | half n => cases h
  | char c =>
    rw [isSequenceParameter, Bool.or_eq_true, Bool.or_eq_true, beq_iff_eq, beq_iff_eq] at h
    rw [Code.isAscii, decide_eq_true_iff]
    rcases h with (rfl | rfl) | hdigit
    · decide
    · decide
    · exact (Char.isDigit_iff_toNat.mp hdigit).2.trans_lt (by decide)

/-- A control sequence is made of ASCII characters. -/
theorem sequence_ascii {s : List Code} {k : Nat} (h : sequenceLength? s = some k) :
    0 < k ∧ ∀ x ∈ s.take k, x.isAscii = true := by
  unfold sequenceLength? at h
  split at h
  next rest =>
    have hparameters : ∀ x ∈ rest.takeWhile isSequenceParameter, x.isAscii = true := fun x hx =>
      isSequenceParameter_ascii (List.mem_takeWhile_imp hx)
    have htake : rest.takeWhile isSequenceParameter = rest.take _ :=
      List.prefix_iff_eq_take.mp (List.takeWhile_prefix isSequenceParameter)
    generalize rest.takeWhile isSequenceParameter = parameters at h hparameters htake
    dsimp only at h
    split at h
    next c tail hdrop =>
      split at h
      next halpha =>
        cases h
        have hrest : rest = parameters ++ .char c :: tail := calc
          rest = rest.take parameters.length ++ rest.drop parameters.length :=
            (List.take_append_drop _ _).symm
          _ = parameters ++ .char c :: tail := by rw [← htake, hdrop]
        have hsequence : rest.take (parameters.length + 1) = parameters ++ [.char c] := by
          rw [hrest, List.take_length_add_append]
          rfl
        refine ⟨by omega, ?_⟩
        rw [List.take_succ_cons, List.take_succ_cons, hsequence]
        intro x hx
        simp only [List.mem_cons, List.mem_append, List.not_mem_nil, or_false] at hx
        rcases hx with rfl | rfl | hx | rfl
        · decide
        · decide
        · exact hparameters x hx
        · exact decide_eq_true (isAlpha_ascii halpha)
      next => cases h
    next => cases h
  next => cases h

theorem mem_dropSequencesAfter {x : Code} (hx : x.isAscii = false) (skip : Nat) (s : List Code) :
    x ∈ dropSequencesAfter skip s ↔ x ∈ s.drop skip := by
  induction s generalizing skip with
  | nil => simp [dropSequencesAfter]
  | cons c s ih =>
    cases skip with
    | succ skip =>
      rw [dropSequencesAfter, List.drop_succ_cons]
      exact ih skip
    | zero =>
      rw [dropSequencesAfter, List.drop_zero]
      split
      next k hk =>
        obtain ⟨hpos, hascii⟩ := sequence_ascii hk
        obtain ⟨k, rfl⟩ := Nat.exists_eq_succ_of_ne_zero hpos.ne'
        have hnone : x ∉ (c :: s).take (k + 1) := fun hmem => by simp [hascii x hmem] at hx
        rw [List.take_succ_cons, List.mem_cons, not_or] at hnone
        have hsplit : x ∈ s ↔ x ∈ s.take k ∨ x ∈ s.drop k := by
          rw [← List.mem_append, List.take_append_drop]
        rw [ih, List.mem_cons, hsplit]
        simp [hnone.1, hnone.2]
      next => rw [List.mem_cons, List.mem_cons, ih, List.drop_zero]

theorem mem_dropSequences {x : Code} (hx : x.isAscii = false) (s : List Code) :
    x ∈ dropSequences s ↔ x ∈ s :=
  mem_dropSequencesAfter hx 0 s

theorem dropSequences_cons {c : Char} (hc : c ≠ '\x1b') (s : List Code) :
    dropSequences (.char c :: s) = .char c :: dropSequences s := by
  have hnone : sequenceLength? (.char c :: s) = none := by
    unfold sequenceLength?
    split
    next heq =>
      cases heq
      exact absurd rfl hc
    next => rfl
  unfold dropSequences
  rw [dropSequencesAfter, hnone]

theorem dropSequences_append {s : List Char} (hs : '\x1b' ∉ s) (rest : List Code) :
    dropSequences (codes s ++ rest) = codes s ++ dropSequences rest := by
  induction s with
  | nil => rfl
  | cons c s ih =>
    obtain ⟨hc, hs⟩ := not_or.mp (mt List.mem_cons.mpr hs)
    exact (dropSequences_cons (Ne.symm hc) _).trans (congrArg (Code.char c :: ·) (ih hs))

end PenPlotter.Text
