import PenPlotter.Proofs.Serial.Calls
import PenPlotter.Serial.Steps
/-! # What a line counts

A line counts what its writes were offered, unless the device raised an error. The bytes that a device
left of a write which it answered are counted with those that it took. So the count is that of the bytes
taken just where each answered write was taken whole, and a timeout tells the same count.
-/
namespace PenPlotter
open Text

namespace Call

def Whole (c : Call) : Prop := ∀ n, c.answer = .ok n → c.taken = c.data

def lost (c : Call) : Nat :=
  match c.answer with
  | .ok _ => c.data.length - c.taken.length
  | .error _ => 0

theorem lost_eq_zero {c : Call} : c.lost = 0 ↔ c.Whole := by
  rcases c with ⟨data, e | n⟩
  · exact iff_of_true rfl nofun
  · have hpart := Call.taken_prefix ⟨data, .ok n⟩
    have hle := hpart.length_le
    simp only [lost, Whole]
    constructor
    · intro hzero m _
      refine hpart.eq_of_length ?_
      dsimp only at hle ⊢
      omega
    · intro hwhole
      have hall := hwhole n rfl
      rw [hall, Nat.sub_self]

end Call

def lostBy : List Call → Nat
  | [] => 0
  | c :: calls => c.lost + lostBy calls

theorem lostBy_eq_zero {calls : List Call} : lostBy calls = 0 ↔ ∀ c ∈ calls, c.Whole := by
  induction calls with
  | nil => simp [lostBy]
  | cons c calls ih =>
    rw [List.forall_mem_cons, ← ih, ← Call.lost_eq_zero]
    exact Nat.add_eq_zero_iff

namespace Line
variable {l : Line}

/-- A write adds what the device took of it and what was lost. -/
theorem write_tally (data : Bytes) (l : Line) :
    ∃ c : Call, (l.write data).2.calls = l.calls ++ [c] ∧
      (l.write data).2.total = l.total + (c.taken.length + c.lost) := by
  have hcalls := calls_transmit data l
  have htotal : (l.transmit data).2.total = l.total := rfl
  unfold write
  generalize l.transmit data = outcome at hcalls htotal ⊢
  rcases outcome with ⟨reply, t⟩
  refine ⟨⟨data, reply.result⟩, ?_, ?_⟩
  · cases reply <;> exact hcalls
  · have hpart := Call.taken_prefix ⟨data, reply.result⟩
    have hle := hpart.length_le
    cases reply with
    | error e => exact htotal
    | count n | all =>
      simp only [Reply.result, Call.lost] at hle htotal ⊢
      omega

/-- What the writes of a body add to the count is what the device took of them and what was lost. -/
theorem run_tally (steps : List LineStep) (l : Line) :
    ∃ seen, (run steps l).2.calls = l.calls ++ seen ∧
      (run steps l).2.total = l.total + ((takenBy seen).length + lostBy seen) := by
  induction steps generalizing l with
  | nil => exact ⟨[], (List.append_nil _).symm, rfl⟩
  | cons step steps ih =>
    cases step with
    | raise e => exact ⟨[], (List.append_nil _).symm, rfl⟩
    | write data catches =>
      obtain ⟨c, hcalls, htotal⟩ := write_tally data l
      -- A note changes neither the writes nor the count, and the steps behind it go on from there.
      have hrest {t : Line} (htcalls : t.calls = l.calls ++ [c])
          (httotal : t.total = l.total + (c.taken.length + c.lost)) :
          ∃ seen, (run steps t).2.calls = l.calls ++ seen ∧
            (run steps t).2.total = l.total + ((takenBy seen).length + lostBy seen) := by
        obtain ⟨seen, hseen, hsum⟩ := ih t
        refine ⟨c :: seen, ?_, ?_⟩
        · rw [hseen, htcalls, List.append_assoc, List.singleton_append]
        · rw [hsum, httotal, takenBy_cons, List.length_append, lostBy]
          omega
      rw [run]
      generalize l.write data = outcome at hcalls htotal ⊢
      rcases outcome with ⟨e | n, t⟩
      · have hnoted : (t.record (.refused e t.total)).calls = l.calls ++ [c] := by
          rw [calls_record, hcalls]
          exact List.append_nil _
        cases catches with
        | true => exact hrest hnoted htotal
        | false =>
          refine ⟨[c], hnoted, ?_⟩
          rw [takenBy_cons, takenBy_nil, List.append_nil]
          exact htotal
      · refine hrest ?_ htotal
        rw [calls_record, hcalls]
        exact List.append_nil _

/-- A timeout tells the count of the line, and the device took nothing of the write. -/
theorem write_timedOut {data : Bytes} {port : String} {n : Nat} {e : DeviceError}
    (h : (l.write data).1 = .error (.transport (.writeTimedOut port n e))) :
    n = l.total ∧ takenBy (l.write data).2.calls = takenBy l.calls := by
  have hcalls := calls_transmit data l
  have htotal : (l.transmit data).2.total = l.total := rfl
  unfold write at h ⊢
  generalize l.transmit data = outcome at hcalls htotal h ⊢
  rcases outcome with ⟨reply, t⟩
  cases reply with
  | error e' =>
    constructor
    · rcases e' with ⟨kind, message⟩
      cases kind <;> cases h
      exact htotal
    · have htaken := congrArg takenBy hcalls
      rw [takenBy_append] at htaken
      exact htaken.trans (List.append_nil _)
  | count n | all => cases h

/-- After any writes the count of a line is that of the bytes that the device took, just where every
write that it answered was taken whole; and so is the count that the next timeout tells. -/
theorem run_total_iff (steps : List LineStep) (port : String) (logged : Bool)
    (replies : List Reply) :
    let l := (run steps { port, logged, replies }).2
    (l.total = (takenBy l.calls).length ↔ ∀ call ∈ l.calls, call.Whole) ∧
      ∀ data place n e, (l.write data).1 = .error (.transport (.writeTimedOut place n e)) →
        (n = (takenBy (l.write data).2.calls).length ↔ ∀ call ∈ l.calls, call.Whole) := by
  intro l
  obtain ⟨seen, hseen, hsum⟩ := run_tally steps { port, logged, replies }
  have hcalls : l.calls = seen := hseen
  have htotal : l.total = (takenBy seen).length + lostBy seen := hsum.trans (Nat.zero_add _)
  have hcount : l.total = (takenBy l.calls).length ↔ ∀ call ∈ l.calls, call.Whole := by
    rw [hcalls, htotal, ← lostBy_eq_zero]
    omega
  refine ⟨hcount, ?_⟩
  intro data place n e htimedOut
  obtain ⟨hn, htaken⟩ := write_timedOut htimedOut
  rw [hn, htaken]
  exact hcount

/-- Three bytes that are taken whole, and a timeout behind them that tells three. -/
theorem run_total_iff_timedOut :
    let l := (run [.write [68, 70, 59] false]
      { port := "line", replies := [.count 3, .error ⟨.lineTimeout, ""⟩] }).2
    (l.write [80, 85, 59]).1 = .error (.transport (.writeTimedOut "line" 3 ⟨.lineTimeout, ""⟩)) ∧
      (3 = (takenBy (l.write [80, 85, 59]).2.calls).length ↔ ∀ call ∈ l.calls, call.Whole) := by
  intro l
  have htimedOut : (l.write [80, 85, 59]).1 =
      .error (.transport (.writeTimedOut "line" 3 ⟨.lineTimeout, ""⟩)) := rfl
  exact ⟨htimedOut, (run_total_iff [.write [68, 70, 59] false] "line" false
    [.count 3, .error ⟨.lineTimeout, ""⟩]).2 _ _ _ _ htimedOut⟩

/-- A device that takes one byte of three: the count is three, and so is the one that a timeout of the
two others tells. -/
theorem run_overcounts :
    let l := (run [.write [68, 70, 59] false]
      { port := "line", replies := [.count 1, .error ⟨.lineTimeout, ""⟩] }).2
    l.total = 3 ∧ (takenBy l.calls).length = 1 ∧
      (l.write [70, 59]).1 =
        .error (.transport (.writeTimedOut "line" 3 ⟨.lineTimeout, ""⟩)) :=
  ⟨rfl, rfl, rfl⟩

end Line

end PenPlotter
