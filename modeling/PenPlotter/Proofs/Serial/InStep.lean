import PenPlotter.Proofs.Serial.Calls
import PenPlotter.Proofs.Serial.Protocol
import PenPlotter.Service.Send
/-! # Lines in step

Two sinks that answer alike in related states stay in step through a whole delivery: they are offered the
same blocks, and both deliveries end well or neither does. The counting sink of a line and the device
itself are two such sinks, and their records are the same from where the line was opened. Around the
writes of its body a session puts the opening, the flush where the body ended well, and the close.
-/
namespace PenPlotter
open Text

/-! ## Sinks in step -/

section
variable {σ τ : Type} {R : σ → τ → Prop} {outer : Sink σ} {inner : Sink τ}

/-- Sinks in related states both fail, or both pass and take the same bytes, and are related again. -/
def InStep (R : σ → τ → Prop) (outer : Sink σ) (inner : Sink τ) : Prop :=
  ∀ data s t, data ≠ [] → R s t →
    (Call.mk data (outer data s).1).Agrees ⟨data, (inner data t).1⟩ ∧
      (Call.mk data (inner data t).1).Agrees ⟨data, (outer data s).1⟩ ∧
      R (outer data s).2 (inner data t).2

theorem offer_inStep (h : InStep R outer inner) (data : Bytes) {s : σ} {t : τ} (hst : R s t) :
    ((offer outer data s).1 = .ok () ↔ (offer inner data t).1 = .ok ()) ∧
      R (offer outer data s).2 (offer inner data t).2 := by
  induction hlen : data.length using Nat.strongRecOn generalizing data s t with
  | _ k ih =>
    by_cases hd : data = []
    · subst hd
      rw [offer_nil, offer_nil]
      exact ⟨Iff.rfl, hst⟩
    · obtain ⟨hforth, hback, hnext⟩ := h data s t hd hst
      rw [offer_call outer hd, offer_call inner hd]
      cases he : (Call.mk data (outer data s).1).failure? with
      | some e =>
        cases hf : (Call.mk data (inner data t).1).failure? with
        | some f => exact ⟨by simp, hnext⟩
        | none =>
          have hpass := (hback hf).1
          rw [he] at hpass
          cases hpass
      | none =>
        obtain ⟨hf, htaken⟩ := hforth he
        rw [hf, htaken]
        have hpos := List.length_pos_iff.mpr (Call.taken_ne_nil he hd)
        have hdata := List.length_pos_iff.mpr hd
        exact ih _ (by rw [List.length_drop]; omega) _ hnext rfl

/-- Deliveries to two sinks in step end well together, and leave them in step. -/
theorem deliver_inStep (h : InStep R outer inner) (frames : List (Except Fault Bytes)) {s : σ}
    {t : τ} (hst : R s t) :
    ((deliver outer frames s).1 = .ok () ↔ (deliver inner frames t).1 = .ok ()) ∧
      R (deliver outer frames s).2 (deliver inner frames t).2 := by
  induction frames generalizing s t with
  | nil => exact ⟨Iff.rfl, hst⟩
  | cons frame rest ih =>
    cases frame with
    | error f => exact ⟨Iff.rfl, hst⟩
    | ok data =>
      obtain ⟨hiff, hnext⟩ := offer_inStep h data hst
      rw [deliver, deliver]
      generalize offer outer data s = run at hiff hnext ⊢
      generalize offer inner data t = run' at hiff hnext ⊢
      rcases run with ⟨e | u, s'⟩
      · rcases run' with ⟨e' | u', t'⟩
        · exact ⟨by simp, hnext⟩
        · cases hiff.mpr rfl
      · rcases run' with ⟨e' | u', t'⟩
        · cases hiff.mp rfl
        · exact ih hnext

end

/-! ## Lines in step -/

namespace Line
variable {settings : Settings} {script : DeviceScript} {l : Line}

/-- A counted line has the device's answers before it that the bare one has, and behind what it began
with the same record. -/
structure Follows (front : List LineEvent) (s : Counted Line) (bare : Line) : Prop where
  replies : s.inner.replies = bare.replies
  events : s.inner.events = front ++ bare.events

theorem write_inStep (front : List LineEvent) :
    InStep (Follows front) (counting write) bareWrite := by
  intro data s bare hd hfollows
  obtain ⟨hreplies, hevents⟩ := hfollows
  rcases s with ⟨l, frames, bytes⟩
  dsimp only at hreplies hevents
  simp only [counting, write, bareWrite, transmit, hreplies]
  generalize Reply.next data bare.replies = next
  rcases next with ⟨reply, rest⟩
  have hrecord : (record { l with replies := rest } (.wrote data reply)).events =
      front ++ (record { bare with replies := rest } (.wrote data reply)).events := by
    simp only [record, hevents, List.append_assoc]
  cases reply with
  | error e =>
    refine ⟨fun h => ?_, fun h => ?_, rfl, hrecord⟩
    · cases h
    · cases h
  | count n => exact ⟨fun h => ⟨h, rfl⟩, fun h => ⟨h, rfl⟩, rfl, hrecord⟩
  | all =>
    refine ⟨fun _ => ⟨rfl, (List.take_length).symm⟩, fun _ => ⟨?_, List.take_length⟩, rfl, hrecord⟩
    simp [Call.failure?, hd]

theorem bareWrite_events {m : Line} {calls : List Call} (h : Ran bareWrite l calls m) :
    ∃ writes, m.events = l.events ++ writes ∧ ∀ e ∈ writes, e.IsWrite := by
  induction h with
  | done l => exact ⟨[], (List.append_nil _).symm, by simp⟩
  | @step l m c calls hc _ ih =>
    obtain ⟨writes, hwrites, hall⟩ := ih
    refine ⟨.wrote c.data (l.transmit c.data).1 :: writes, ?_,
      List.forall_mem_cons.mpr ⟨⟨_, _, rfl⟩, hall⟩⟩
    rw [hwrites]
    exact List.append_assoc l.events _ writes

/-! ## Sessions -/

theorem events_close (l : Line) : l.close.events = l.events ++ [.closed] := by
  rw [close, events_say]
  rfl

theorem events_flush (error : Option DeviceError) (l : Line) :
    (l.flush error).2.events = l.events ++ [.flushed] := by
  cases error <;> rfl

def ending {α : Type} : Except Failure α → List LineEvent
  | .ok _ => [.flushed, .closed]
  | .error _ => [.closed]

theorem ending_congr {α β : Type} {r : Except Failure α} {q : Except Failure β}
    (h : (∃ a, r = .ok a) ↔ ∃ b, q = .ok b) : Line.ending r = Line.ending q := by
  rcases r with e | a
  · rcases q with f | b
    · rfl
    · obtain ⟨a, ha⟩ := h.mpr ⟨b, rfl⟩
      cases ha
  · rcases q with f | b
    · obtain ⟨b, hb⟩ := h.mp ⟨a, rfl⟩
      cases hb
    · rfl

/-- A session on a line that opens ends as its body does, unless the flush fails. -/
theorem session_cases {α : Type} {o : LineOptions} (ho : settings.options = .ok o)
    (hopen : script.openError = none) (body : Line → Except Failure α × Line) (l : Line) :
    let run := session settings script body l
    let end' := body (l.ready settings script o)
    run.2.events = end'.2.events ++ ending end'.1 ∧
      ((∃ a, run.1 = .ok a) ↔ (∃ a, end'.1 = .ok a) ∧ script.flushError = none) := by
  intro run end'
  have hgoes : Goes settings script body l run := session_goes settings script body l
  generalize run = outcome at hgoes
  cases hgoes with
  | refused h => cases ho.symm.trans h
  | unopened _ h => cases hopen.symm.trans h
  | @failed o' after e ho' _ hb =>
    cases ho.symm.trans ho'
    have hend : end' = (.error e, after) := hb
    rw [hend, events_close]
    exact ⟨rfl, by simp⟩
  | @finished o' after a ho' _ hb =>
    cases ho.symm.trans ho'
    have hend : end' = (.ok a, after) := hb
    rw [hend]
    refine ⟨?_, ?_⟩
    · rw [events_close, events_flush, List.append_assoc]
      rfl
    · cases hflush : script.flushError with
      | none => exact iff_of_true ⟨a, rfl⟩ ⟨⟨a, rfl⟩, rfl⟩
      | some e => exact iff_of_false (fun ⟨_, h⟩ => nomatch h) (fun h => nomatch h.2)

theorem events_ready {o : LineOptions} (hl : l.events = []) :
    (l.ready settings script o).events = [.opened l.port (some o)] := by
  obtain ⟨log, hready⟩ := ready_eq l settings script o
  rw [hready]
  change l.events ++ _ = _
  rw [hl]
  rfl

end Line

end PenPlotter
