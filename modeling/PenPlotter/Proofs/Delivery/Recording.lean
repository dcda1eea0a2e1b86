import PenPlotter.Proofs.Delivery.Taken
/-! # Sinks that watch other sinks

A sink may keep more than another one and otherwise do the same. Deliveries to the two then end alike,
and what the larger one keeps belongs to both. `recording` keeps the calls themselves.
-/
namespace PenPlotter
open Text

variable {σ τ : Type}

/-- Seen through `view`, the outer sink answers and changes as the inner one does. -/
def Projects (view : τ → σ) (outer : Sink τ) (inner : Sink σ) : Prop :=
  ∀ data t, inner data (view t) = ((outer data t).1, view (outer data t).2)

theorem offer_projects {view : τ → σ} {outer : Sink τ} {inner : Sink σ}
    (h : Projects view outer inner) (data : Bytes) (t : τ) :
    offer inner data (view t) = ((offer outer data t).1, view (offer outer data t).2) := by
  induction hlen : data.length using Nat.strongRecOn generalizing data t with
  | _ k ih =>
    by_cases hd : data = []
    · subst hd
      rw [offer_nil, offer_nil]
    · rw [offer_call outer hd, offer_call inner hd, h data t]
      dsimp only
      cases he : (Call.mk data (outer data t).1).failure? with
      | some e => rfl
      | none =>
        have htaken := List.length_pos_iff.mpr (Call.taken_ne_nil he hd)
        have hdata := List.length_pos_iff.mpr hd
        exact ih _ (by rw [List.length_drop]; omega) _ _ rfl

theorem deliver_projects {view : τ → σ} {outer : Sink τ} {inner : Sink σ}
    (h : Projects view outer inner) (frames : List (Except Fault Bytes)) (t : τ) :
    deliver inner frames (view t) = ((deliver outer frames t).1, view (deliver outer frames t).2) := by
  induction frames generalizing t with
  | nil => rfl
  | cons frame rest ih =>
    cases frame with
    | error f => rfl
    | ok data =>
      rw [deliver, deliver, offer_projects h data t]
      rcases offer outer data t with ⟨e | u, t'⟩
      · rfl
      · exact ih t'

structure Recorded (σ : Type) where
  inner : σ
  calls : List Call := []

def recording (write : Sink σ) : Sink (Recorded σ) := fun data s =>
  ((write data s.inner).1, ⟨(write data s.inner).2, s.calls ++ [⟨data, (write data s.inner).1⟩]⟩)

theorem recording_projects (write : Sink σ) : Projects Recorded.inner (recording write) write :=
  fun _ _ => rfl

theorem Ran.recorded {write : Sink σ} {s t : Recorded σ} {calls : List Call}
    (h : Ran (recording write) s calls t) : t.calls = s.calls ++ calls := by
  induction h with
  | done => simp
  | @step s t c calls hc hr ih =>
    have hanswer : (write c.data s.inner).1 = c.answer := hc
    rw [ih]
    simp only [recording, hanswer, List.append_assoc, List.singleton_append]

end PenPlotter
