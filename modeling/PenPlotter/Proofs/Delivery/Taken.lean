import PenPlotter.Proofs.Delivery.Calls
/-! # What a delivery gets across

A delivery that ends well has got all its bytes across; one that fails stops at its first failing call
and has got a proper prefix across. A call is counted as short where it took only a part of what it
was offered: each such call costs one call more, and what it left is offered once more.
-/
namespace PenPlotter
open Text

def StoppedBy (e : Failure) (calls : List Call) : Prop :=
  ∃ before last, calls = before ++ [last] ∧ last.failure? = some e ∧
    ∀ c ∈ before, c.failure? = none

theorem StoppedBy.append {e : Failure} {calls more : List Call}
    (hc : ∀ c ∈ calls, c.failure? = none) (h : StoppedBy e more) : StoppedBy e (calls ++ more) := by
  obtain ⟨before, last, rfl, hlast, hbefore⟩ := h
  refine ⟨calls ++ before, last, (List.append_assoc ..).symm, hlast, ?_⟩
  intro c hmem
  rcases List.mem_append.mp hmem with h | h
  · exact hc c h
  · exact hbefore c h

theorem StoppedBy.cons {e : Failure} {c : Call} {calls : List Call} (hc : c.failure? = none)
    (h : StoppedBy e calls) : StoppedBy e (c :: calls) := by
  have hsingle : ∀ d ∈ [c], d.failure? = none := List.forall_mem_singleton.mpr hc
  exact StoppedBy.append hsingle h

/-- Calls end as the delivery says: all bytes are across and no call failed, or the last call failed
and some bytes are not across. -/
def Settles (data : Bytes) (calls : List Call) : Except Failure Unit → Prop
  | .ok () => (∀ c ∈ calls, c.failure? = none) ∧ takenBy calls = data
  | .error e => StoppedBy e calls ∧ ∃ pending, pending ≠ [] ∧ takenBy calls ++ pending = data

/-- A call that does not fail puts its bytes in front of what the calls after it settle. -/
theorem Settles.cons {c : Call} {calls : List Call} {data : Bytes} {r : Except Failure Unit}
    (hc : c.failure? = none) (h : Settles data calls r) :
    Settles (c.taken ++ data) (c :: calls) r := by
  rcases r with e | u
  · obtain ⟨hstop, pending, hne, hsum⟩ := h
    exact ⟨hstop.cons hc, pending, hne, by rw [takenBy_cons, List.append_assoc, hsum]⟩
  · obtain ⟨hall, hsum⟩ := h
    exact ⟨List.forall_mem_cons.mpr ⟨hc, hall⟩, by rw [takenBy_cons, hsum]⟩

theorem Settles.append {data more : Bytes} {calls rest : List Call} {r : Except Failure Unit}
    (h : Settles data calls (.ok ())) (hr : Settles more rest r) :
    Settles (data ++ more) (calls ++ rest) r := by
  obtain ⟨hall, rfl⟩ := h
  rcases r with e | u
  · obtain ⟨hstop, pending, hne, hsum⟩ := hr
    exact ⟨hstop.append hall, pending, hne, by rw [takenBy_append, List.append_assoc, hsum]⟩
  · obtain ⟨hrest, rfl⟩ := hr
    exact ⟨List.forall_mem_append.mpr ⟨hall, hrest⟩, takenBy_append calls rest⟩

/-- A failure leaves also what would have come later. -/
theorem Settles.of_error {data : Bytes} {calls : List Call} {e : Failure}
    (h : Settles data calls (.error e)) (more : Bytes) :
    Settles (data ++ more) calls (.error e) := by
  obtain ⟨hstop, pending, hne, hsum⟩ := h
  exact ⟨hstop, pending ++ more, List.append_ne_nil_of_left_ne_nil hne more,
    by rw [← List.append_assoc, hsum]⟩

theorem Offers.settles {data : Bytes} {calls : List Call} {r : Except Failure Unit}
    (h : Offers data calls r) : Settles data calls r := by
  induction h with
  | done => exact ⟨by simp, rfl⟩
  | @failed c e hd he =>
    refine ⟨⟨[], c, rfl, he, by simp⟩, c.data, hd, ?_⟩
    simp [Call.taken_of_failure he]
  | @step c calls r hd he hr ih =>
    rw [← c.taken_append_rest]
    exact ih.cons he

/-- The delivery of frames that are all rendered settles their bytes. -/
theorem Delivers.settles {frames : List Bytes} {calls : List Call} {r : Except Failure Unit}
    (h : Delivers (frames.map .ok) calls r) : Settles frames.flatten calls r := by
  induction frames generalizing calls with
  | nil =>
    cases h
    exact ⟨by simp, rfl⟩
  | cons data rest ih =>
    rw [List.flatten_cons]
    cases h with
    | failed ho => exact ho.settles.of_error rest.flatten
    | step ho hr => exact ho.settles.append (ih hr)

/-- Getting everything across is ending well. -/
theorem Settles.ok_iff {data : Bytes} {calls : List Call} {r : Except Failure Unit}
    (h : Settles data calls r) : r = .ok () ↔ takenBy calls = data := by
  rcases r with e | u
  · obtain ⟨-, pending, hne, hsum⟩ := h
    refine ⟨by simp, fun htaken => ?_⟩
    rw [htaken] at hsum
    exact absurd (List.append_right_eq_self.mp hsum) hne
  · exact ⟨fun _ => h.2, fun _ => rfl⟩

/-! ## Short calls -/

def shortCalls (calls : List Call) : Nat := calls.countP (decide <| Call.Short ·)

def offeredBy : List Call → Nat
  | [] => 0
  | c :: calls => c.data.length + offeredBy calls

def leftBy : List Call → Nat
  | [] => 0
  | c :: calls => (c.data.length - c.taken.length) + leftBy calls

theorem shortCalls_eq_zero {calls : List Call} :
    shortCalls calls = 0 ↔ ∀ c ∈ calls, ¬ c.Short := by
  simp [shortCalls, List.countP_eq_zero]

theorem offeredBy_eq (calls : List Call) :
    offeredBy calls = (takenBy calls).length + leftBy calls := by
  induction calls with
  | nil => rfl
  | cons c calls ih =>
    have hle := c.taken_prefix.length_le
    simp only [offeredBy, leftBy, takenBy_cons, List.length_append] at ih ⊢
    omega

theorem leftBy_eq_zero {calls : List Call} (h : ∀ c ∈ calls, c.failure? = none) :
    leftBy calls = 0 ↔ ∀ c ∈ calls, ¬ c.Short := by
  induction calls with
  | nil => simp [leftBy]
  | cons c calls ih =>
    obtain ⟨hc, hcalls⟩ := List.forall_mem_cons.mp h
    have hshort : c.data.length - c.taken.length = 0 ↔ ¬ c.Short := by
      simp only [Call.Short, hc, true_and]
      omega
    rw [List.forall_mem_cons, ← ih hcalls, ← hshort]
    simp only [leftBy, Nat.add_eq_zero_iff]

theorem Offers.eq_nil {data : Bytes} {calls : List Call} {r : Except Failure Unit}
    (h : Offers data calls r) (hd : data = []) : calls = [] := by
  cases h with
  | done => rfl
  | failed hne => exact absurd hd hne
  | step hne => exact absurd hd hne

/-- A block of bytes takes one call, and one more for each short call. -/
theorem Offers.length {data : Bytes} {calls : List Call} {r : Except Failure Unit}
    (h : Offers data calls r) (hr : r = .ok ()) (hd : data ≠ []) :
    calls.length = 1 + shortCalls calls := by
  induction h with
  | done => exact absurd rfl hd
  | failed _ _ => simp at hr
  | @step c calls r hd he htail ih =>
    have hle := c.taken_prefix.length_le
    by_cases hrest : c.data.drop c.taken.length = []
    · have hnot : ¬ c.Short := by
        rw [List.drop_eq_nil_iff] at hrest
        exact fun hs => absurd hs.2 (by omega)
      simp [htail.eq_nil hrest, shortCalls, hnot]
    · have hshort : c.Short := by
        rw [List.drop_eq_nil_iff] at hrest
        exact ⟨he, by omega⟩
      have := ih hr hrest
      simp only [shortCalls, List.countP_cons, hshort, decide_true, ↓reduceIte,
        List.length_cons] at this ⊢
      omega

/-- A delivery that ends well takes a call for each frame, and one more for each short call. -/
theorem Delivers.length {frames : List Bytes} {calls : List Call}
    (h : Delivers (frames.map .ok) calls (.ok ())) (hne : ∀ data ∈ frames, data ≠ []) :
    calls.length = frames.length + shortCalls calls := by
  induction frames generalizing calls with
  | nil =>
    cases h
    rfl
  | cons data rest ih =>
    obtain ⟨hdata, hrest⟩ := List.forall_mem_cons.mp hne
    cases h with
    | step ho hr =>
      have hfirst := ho.length rfl hdata
      have hmore := ih hr hrest
      simp only [shortCalls, List.length_append, List.length_cons, List.countP_append] at *
      omega

end PenPlotter
