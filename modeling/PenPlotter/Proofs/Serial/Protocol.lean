import PenPlotter.Proofs.Number.Numeral
import PenPlotter.Proofs.Serial.Session
import PenPlotter.Proofs.Serial.Supported
import PenPlotter.Serial.Steps
/-! # The protocol of a line

What happens on a port in a session whose body is a list of steps: nothing, a single try to open it, or
writes between opening and closing, with a flush just before the close where the body ended well.
-/
namespace PenPlotter
open Text

namespace LineEvent

/-- Notes of a body are not events of the port. -/
def onPort : LineEvent → Bool
  | .accepted .. | .refused .. => false
  | _ => true

def IsWrite (e : LineEvent) : Prop := ∃ data reply, e = .wrote data reply

end LineEvent

namespace Line

def portEvents (l : Line) : List LineEvent := l.events.filter (·.onPort)

@[simp] theorem portEvents_record (l : Line) (e : LineEvent) :
    (l.record e).portEvents = l.portEvents ++ if e.onPort then [e] else [] := by
  simp only [portEvents, record, List.filter_append, List.filter_cons, List.filter_nil]

@[simp] theorem portEvents_say (l : Line) (level : LogLevel) (message : String) :
    (l.say level message).portEvents = l.portEvents := by
  rw [portEvents, events_say, portEvents]

@[simp] theorem portEvents_flush (error : Option DeviceError) (l : Line) :
    (l.flush error).2.portEvents = l.portEvents ++ [.flushed] := by
  cases error <;> simp only [flush, portEvents_record] <;> rfl

/-! ## Steps -/

def Alike (l m : Line) : Prop := l.port = m.port ∧ l.replies = m.replies ∧ l.total = m.total

theorem write_alike {l m : Line} (h : l.Alike m) (data : Bytes) :
    (l.write data).1 = (m.write data).1 ∧ (l.write data).2.Alike (m.write data).2 := by
  rcases l with ⟨port, logged, replies, total, events, log⟩
  rcases m with ⟨port', logged', replies', total', events', log'⟩
  obtain ⟨rfl, rfl, rfl⟩ := h
  simp only [write, transmit]
  rcases Reply.next data replies with ⟨reply, rest⟩
  cases reply <;> exact ⟨rfl, rfl, rfl, rfl⟩

/-- How a body ends depends on the device and the bytes that were counted, not on the record. -/
theorem run_alike {l m : Line} (h : l.Alike m) (steps : List LineStep) :
    (run steps l).1 = (run steps m).1 := by
  induction steps generalizing l m with
  | nil => rfl
  | cons step steps ih =>
    cases step with
    | raise e => rfl
    | write data catches =>
      obtain ⟨hresult, hnext⟩ := write_alike h data
      rw [run, run]
      generalize l.write data = outcome at hresult hnext ⊢
      generalize m.write data = outcome' at hresult hnext ⊢
      rcases outcome with ⟨r, l⟩
      rcases outcome' with ⟨r', m⟩
      cases hresult
      cases r with
      | ok n => exact ih hnext
      | error e =>
        cases catches with
        | true => exact ih hnext
        | false => rfl

theorem write_portEvents (data : Bytes) (l : Line) :
    ∃ reply, (l.write data).2.portEvents = l.portEvents ++ [.wrote data reply] := by
  have htransmit : (l.transmit data).2.portEvents =
      l.portEvents ++ [.wrote data (l.transmit data).1] := by
    simp only [transmit, portEvents_record]
    rfl
  unfold write
  generalize l.transmit data = outcome at htransmit ⊢
  rcases outcome with ⟨reply, t⟩
  refine ⟨reply, ?_⟩
  cases reply <;> exact htransmit

/-- All that a body does to the port is writing. -/
theorem run_portEvents (steps : List LineStep) (l : Line) :
    ∃ writes, (run steps l).2.portEvents = l.portEvents ++ writes ∧ ∀ e ∈ writes, e.IsWrite := by
  induction steps generalizing l with
  | nil => exact ⟨[], by simp [run], by simp⟩
  | cons step steps ih =>
    cases step with
    | raise e => exact ⟨[], by simp [run], by simp⟩
    | write data catches =>
      obtain ⟨reply, hwrite⟩ := write_portEvents data l
      -- The error that is caught and the count are noted, and the steps behind go on alike.
      have hrest {t : Line} (ht : t.portEvents = l.portEvents ++ [.wrote data reply]) :
          ∃ writes, (run steps t).2.portEvents = l.portEvents ++ writes ∧
            ∀ e ∈ writes, e.IsWrite := by
        obtain ⟨writes, hwrites, hall⟩ := ih t
        refine ⟨.wrote data reply :: writes, ?_, List.forall_mem_cons.mpr ⟨⟨data, reply, rfl⟩, hall⟩⟩
        rw [hwrites, ht, List.append_assoc, List.singleton_append]
      rw [run]
      generalize l.write data = outcome at hwrite ⊢
      rcases outcome with ⟨e | n, t⟩
      · have ht : (t.record (.refused e t.total)).portEvents = l.portEvents ++ [.wrote data reply] := by
          rw [portEvents_record, hwrite]
          exact List.append_nil _
        cases catches with
        | true => exact hrest ht
        | false =>
          exact ⟨[.wrote data reply], ht, List.forall_mem_singleton.mpr ⟨data, reply, rfl⟩⟩
      · refine hrest ?_
        rw [portEvents_record, hwrite]
        exact List.append_nil _

/-! ## Sessions -/

inductive OpenRaises : DeviceError → Failure → Prop
  | connect {e : DeviceError} {t : TransportError}
      (he : e.kind ∈ [.line, .lineTimeout, .system, .value]) (ht : t.kind = .connect) :
      OpenRaises e (.transport t)
  | itself {e : DeviceError} (he : e.kind ∈ [.runtime, .send]) : OpenRaises e (.device e)

inductive FlushGives : Option DeviceError → Except Failure Unit → Prop
  | ok : FlushGives none (.ok ())
  | timeout {e : DeviceError} {t : TransportError} (he : e.kind = .lineTimeout)
      (ht : t.kind = .timeout) : FlushGives (some e) (.error (.transport t))
  | send {e : DeviceError} {t : TransportError} (he : e.kind ∈ [.line, .system])
      (ht : t.kind = .send) : FlushGives (some e) (.error (.transport t))
  | itself {e : DeviceError} (he : e.kind ∈ [.value, .runtime, .send]) :
      FlushGives (some e) (.error (.device e))

theorem openFailure_raises (port : String) (e : DeviceError) :
    OpenRaises e (openFailure port e) := by
  rcases e with ⟨kind, message⟩
  cases kind <;> first
    | exact .connect (by simp) rfl
    | exact .itself (by simp)

theorem flush_gives (error : Option DeviceError) (l : Line) :
    FlushGives error (l.flush error).1 := by
  cases error with
  | none => exact .ok
  | some e =>
    rcases e with ⟨kind, message⟩
    cases kind <;> first
      | exact .timeout rfl rfl
      | exact .send (by simp) rfl
      | exact .itself (by simp)

inductive Ends (s : Settings) (script : DeviceScript) (steps : List LineStep) (port : String) :
    Except Failure Unit → List LineEvent → Prop
  /-- The port is left alone for settings that no line supports. -/
  | refused {v : Value} {e : TransportError} (hs : s.unsupported? = some v) (he : e.kind = .connect) :
      Ends s script steps port (.error (.transport e)) []
  | unopened {o : LineOptions} {e : DeviceError} {f : Failure} (hs : s.unsupported? = none)
      (he : script.openError = some e) (hf : OpenRaises e f) :
      Ends s script steps port (.error f) [.opened port (some o)]
  /-- A body that fails is followed by the close, and its failure stays as it is. -/
  | failed {o : LineOptions} {writes : List LineEvent} {f : Failure} (hs : s.unsupported? = none)
      (ho : script.openError = none)
      (hb : (run steps { port, replies := script.replies }).1 = .error f)
      (hw : ∀ e ∈ writes, e.IsWrite) :
      Ends s script steps port (.error f) (.opened port (some o) :: writes ++ [.closed])
  /-- A body that ends well is followed by a flush and the close, whatever the flush gives. -/
  | finished {o : LineOptions} {writes : List LineEvent} {r : Except Failure Unit}
      (hs : s.unsupported? = none) (ho : script.openError = none)
      (hb : (run steps { port, replies := script.replies }).1 = .ok ())
      (hw : ∀ e ∈ writes, e.IsWrite) (hr : FlushGives script.flushError r) :
      Ends s script steps port r (.opened port (some o) :: writes ++ [.flushed, .closed])

variable {s : Settings} {script : DeviceScript} {steps : List LineStep} {port : String}
  {logged : Bool}

/-- The line on which a body starts, seen from the port. -/
theorem ready_alike (s : Settings) (script : DeviceScript) (port : String) (logged : Bool)
    (o : LineOptions) :
    (ready { port, logged } s script o).portEvents = [.opened port (some o)] ∧
      (ready { port, logged } s script o).Alike { port, replies := script.replies } := by
  obtain ⟨log, hready⟩ := ready_eq { port, logged } s script o
  rw [hready]
  refine ⟨?_, rfl, rfl, rfl⟩
  change (started { port, logged } script o).portEvents = _
  rw [started, portEvents_record]
  rfl

theorem body_goes {o : LineOptions} {after : Line} {r : Except Failure Unit}
    (hb : run steps (ready { port, logged } s script o) = (r, after)) :
    (run steps { port, replies := script.replies }).1 = r ∧
      ∃ writes, after.portEvents = .opened port (some o) :: writes ∧ ∀ e ∈ writes, e.IsWrite := by
  obtain ⟨hevents, halike⟩ := ready_alike s script port logged o
  obtain ⟨writes, hwrites, hall⟩ := run_portEvents steps (ready { port, logged } s script o)
  have hresult := run_alike halike steps
  rw [hb] at hresult hwrites
  rw [hevents] at hwrites
  exact ⟨hresult.symm, writes, hwrites, hall⟩

/-- Settings that are refused leave the port alone, and the refusal is told where the setting can be
shown. -/
theorem refused_ends_iff {e : Failure}
    (h : Settings.Outcome s.lookups (.error e : Except Failure LineOptions)) :
    Ends s script steps port (.error e) [] ↔ ∀ v, s.unsupported? = some v → v.showable = true := by
  cases h with
  | refused hv hw he =>
    change s.unsupported? = _ at hv
    refine iff_of_true (.refused hv he) fun v hv' => ?_
    cases hv.symm.trans hv'
    exact hw
  | untold hv hw =>
    refine iff_of_false (fun hends => ?_) fun hall => ?_
    · cases hends
    · have hshowable := hall _ hv
      rw [hw] at hshowable
      cases hshowable

theorem failed_ends {o : LineOptions} {after : Line} {e : Failure} (hs : s.unsupported? = none)
    (hopen : script.openError = none)
    (hb : run steps (ready { port, logged } s script o) = (.error e, after)) :
    Ends s script steps port (.error e) after.close.portEvents := by
  obtain ⟨hbody, writes, hwrites, hall⟩ := body_goes hb
  rw [close, portEvents_say, portEvents_record, hwrites]
  exact .failed hs hopen hbody hall

theorem finished_ends {o : LineOptions} {after : Line} {u : Unit} (hs : s.unsupported? = none)
    (hopen : script.openError = none)
    (hb : run steps (ready { port, logged } s script o) = (.ok u, after)) :
    Ends s script steps port ((after.flush script.flushError).1.map fun _ => u)
      (after.flush script.flushError).2.close.portEvents := by
  obtain ⟨hbody, writes, hwrites, hall⟩ := body_goes hb
  have hevents : (after.flush script.flushError).2.close.portEvents =
      .opened port (some o) :: writes ++ [.flushed, .closed] := by
    rw [close, portEvents_say, portEvents_record, portEvents_flush, hwrites, List.append_assoc]
    rfl
  rw [hevents]
  refine .finished hs hopen hbody hall ?_
  have hflush := flush_gives script.flushError after
  generalize (after.flush script.flushError).1 = given at hflush ⊢
  rcases given with e | ⟨⟩ <;> exact hflush

/-- A session with settings that can be looked up ends by the protocol just where the setting that it
refuses, if there is one, can be shown. -/
theorem session_ends_iff (hs : s.Hashable) (script : DeviceScript) (steps : List LineStep)
    (port : String) (logged : Bool) :
    Ends s script steps port (session s script (run steps) { port, logged }).1
        (session s script (run steps) { port, logged }).2.portEvents ↔
      ∀ v, s.unsupported? = some v → v.showable = true := by
  have hgoes := session_goes s script (run steps) { port, logged }
  have houtcome := Settings.options_outcome hs
  generalize session s script (run steps) { port, logged } = outcome at hgoes ⊢
  have hsupported {o : LineOptions} (ho : s.options = .ok o) : s.unsupported? = none := by
    rw [ho] at houtcome
    cases houtcome
    assumption
  have hnone {o : LineOptions} (ho : s.options = .ok o) :
      ∀ v, s.unsupported? = some v → v.showable = true := by simp [hsupported ho]
  cases hgoes with
  | @refused e h =>
    rw [h] at houtcome
    exact refused_ends_iff houtcome
  | @unopened o e ho h =>
    rw [started, portEvents_record]
    exact iff_of_true (.unopened (hsupported ho) h (openFailure_raises port e)) (hnone ho)
  | failed ho hopen hb => exact iff_of_true (failed_ends (hsupported ho) hopen hb) (hnone ho)
  | finished ho hopen hb => exact iff_of_true (finished_ends (hsupported ho) hopen hb) (hnone ho)

/-- The common settings on a device that times out when it is flushed. -/
theorem session_ends_iff_common :
    Settings.Hashable {} ∧
      Ends {} { flushError := some ⟨.lineTimeout, ""⟩ } [.write [65] false] "line"
        (session {} { flushError := some ⟨.lineTimeout, ""⟩ } (run [.write [65] false])
          { port := "line", logged := true }).1
        (session {} { flushError := some ⟨.lineTimeout, ""⟩ } (run [.write [65] false])
          { port := "line", logged := true }).2.portEvents := by
  have hs : Settings.Hashable {} := ⟨rfl, rfl, rfl⟩
  refine ⟨hs, (session_ends_iff hs _ _ _ _).mpr fun v hv => ?_⟩
  have hnone : (Settings.unsupported? {}).isNone = true := by decide +kernel
  rw [hv] at hnone
  cases hnone

/-- A parity that is an integer with one digit too many: nothing happens on the port, and the refusal is
lost to the fault of showing it. -/
theorem session_ends_not_refused :
    let s : Settings := { parity := .int (tenTo digitLimit) }
    s.Hashable ∧ (session s {} (run []) { port := "line" }).1 = .error (.fault .tooManyDigits) ∧
      (session s {} (run []) { port := "line" }).2.portEvents = [] := by
  refine ⟨⟨rfl, rfl, rfl⟩, by decide +kernel, List.length_eq_zero_iff.mp ?_⟩
  decide +kernel

end Line

end PenPlotter
