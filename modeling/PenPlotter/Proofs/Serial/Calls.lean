import PenPlotter.Proofs.Delivery.Taken
import PenPlotter.Proofs.Serial.Session
/-! # The writes on a line

A line's record holds the writes as the device saw them. A sink reports truly if each of its writes is
in the record, and a write that it lets pass was taken by the device to the same extent; the two sinks
of a line do so.
-/
namespace PenPlotter
open Text

def LineEvent.call? : LineEvent → Option Call
  | .wrote data reply => some ⟨data, reply.result⟩
  | _ => none

/-- Where a call passes, the other one does, and takes the same bytes. -/
def Call.Agrees (c d : Call) : Prop :=
  c.failure? = none → d.failure? = none ∧ d.taken = c.taken

namespace Line

def calls (l : Line) : List Call := l.events.filterMap LineEvent.call?

@[simp] theorem calls_record (l : Line) (e : LineEvent) :
    (l.record e).calls = l.calls ++ e.call?.toList := by
  cases e <;> simp [calls, record, LineEvent.call?]

@[simp] theorem calls_say (l : Line) (level : LogLevel) (message : String) :
    (l.say level message).calls = l.calls := by
  rw [calls, events_say, calls]

@[simp] theorem calls_flush (error : Option DeviceError) (l : Line) :
    (l.flush error).2.calls = l.calls := by
  cases error <;> simp [flush, LineEvent.call?]

@[simp] theorem calls_close (l : Line) : l.close.calls = l.calls := by
  simp [close, LineEvent.call?]

@[simp] theorem calls_ready (l : Line) (settings : Settings) (script : DeviceScript)
    (options : LineOptions) : (l.ready settings script options).calls = l.calls := by
  obtain ⟨log, hready⟩ := ready_eq l settings script options
  rw [hready]
  change (l.started script options).calls = l.calls
  rw [started, calls_record]
  exact List.append_nil _

def Reports (write : Sink Line) : Prop :=
  ∀ data l, ∃ answer, (write data l).2.calls = l.calls ++ [⟨data, answer⟩] ∧
    (Call.mk data (write data l).1).Agrees ⟨data, answer⟩

theorem calls_transmit (data : Bytes) (l : Line) :
    (l.transmit data).2.calls = l.calls ++ [⟨data, (l.transmit data).1.result⟩] := by
  simp only [transmit, calls_record, LineEvent.call?, Option.toList_some]
  rfl

theorem bareWrite_reports : Reports bareWrite :=
  fun data l => ⟨_, calls_transmit data l, fun h => ⟨h, rfl⟩⟩

theorem write_reports : Reports write := by
  intro data l
  have hcalls := calls_transmit data l
  unfold write
  generalize l.transmit data = outcome at hcalls ⊢
  rcases outcome with ⟨reply, t⟩
  refine ⟨reply.result, ?_, ?_⟩
  · cases reply <;> exact hcalls
  · cases reply with
    | error e => exact fun h => nomatch h
    | count n => exact fun h => ⟨h, rfl⟩
    | all => exact fun _ => ⟨rfl, (List.take_length).symm⟩

end Line

/-- What passes a sink that reports truly went through on the line. -/
theorem Ran.reported {write : Sink Line} (hw : Line.Reports write) {l t : Line} {calls : List Call}
    (h : Ran write l calls t) (hok : ∀ c ∈ calls, c.failure? = none) :
    ∃ seen, t.calls = l.calls ++ seen ∧ (∀ c ∈ seen, c.failure? = none) ∧
      takenBy seen = takenBy calls ∧ shortCalls seen = shortCalls calls ∧
      leftBy seen = leftBy calls := by
  induction h with
  | done l => exact ⟨[], by simp, by simp, rfl, rfl, rfl⟩
  | @step l t c calls hc _ ih =>
    obtain ⟨hcok, hcalls⟩ := List.forall_mem_cons.mp hok
    obtain ⟨seen, hseen, hpass, htaken, hshort, hleft⟩ := ih hcalls
    obtain ⟨answer, hrecord, hagrees⟩ := hw c.data l
    rw [hc] at hagrees
    obtain ⟨hdpass, hdtaken⟩ := hagrees hcok
    have hshorts : (Call.mk c.data answer).Short ↔ c.Short := by
      rw [Call.Short, Call.Short, hdpass, hdtaken, hcok]
    refine ⟨⟨c.data, answer⟩ :: seen, ?_, List.forall_mem_cons.mpr ⟨hdpass, hpass⟩, ?_, ?_, ?_⟩
    · rw [hseen, hrecord, List.append_assoc, List.singleton_append]
    · rw [takenBy_cons, takenBy_cons, hdtaken, htaken]
    · simp only [shortCalls, List.countP_cons, hshorts] at hshort ⊢
      rw [hshort]
    · simp only [leftBy, hdtaken, hleft]

end PenPlotter
