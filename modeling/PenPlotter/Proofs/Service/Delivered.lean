import Mathlib.Data.List.Forall2
import PenPlotter.Proofs.Profile.Settings
import PenPlotter.Proofs.Serial.Calls
import PenPlotter.Proofs.Serial.Protocol
import PenPlotter.Proofs.Service.Sent
import PenPlotter.Proofs.Service.Written
/-! # Failures of sending

The errors of a line are told as transport errors when it is opened, written to and flushed. A device
that takes nothing without an error is outside of that: the delivery then stalls, with an error that is
none of the transport.
-/
namespace PenPlotter
open Text

/-- An answer that is no error, or one of the line or of the system. -/
def Reply.Ordinary (r : Reply) : Prop := ∀ e, r = .error e → e.isSystem = true

structure DeviceScript.Ordinary (script : DeviceScript) : Prop where
  opening : ∀ e, script.openError = some e → e.isSystem = true
  writing : ∀ r ∈ script.replies, r.Ordinary
  flushing : ∀ e, script.flushError = some e → e.isSystem = true

def Conveyed {α : Type} (r : Except Failure α) : Prop := ∀ e, r = .error e → ∃ t, e = .transport t

theorem conveyed_ok {α : Type} (a : α) : Conveyed (.ok a) := nofun

theorem conveyed_iff {α : Type} {r : Except Failure α} :
    Conveyed r ↔ (∃ a, r = .ok a) ∨ ∃ t, r = .error (.transport t) := by
  cases r with
  | ok a => exact iff_of_true (conveyed_ok a) (.inl ⟨a, rfl⟩)
  | error e => simp [Conveyed]

theorem Conveyed.map_iff {α β : Type} {r : Except Failure α} {f : α → β} :
    Conveyed (r.map f) ↔ Conveyed r := by
  cases r with
  | ok a => exact iff_of_true (conveyed_ok (f a)) (conveyed_ok a)
  | error e => simp [Conveyed, Except.map]

def Call.Progresses (c : Call) : Prop := ∀ n, c.answer = .ok (some n) → 0 < n

theorem Call.progresses_error {data : Bytes} (f : Failure) :
    (Call.mk data (.error f)).Progresses := nofun

theorem Call.progresses_none {data : Bytes} : (Call.mk data (.ok none)).Progresses := nofun

theorem Reply.ordinary_count (n : ℤ) : (Reply.count n).Ordinary := nofun

namespace Line
variable {l : Line}

theorem openFailure_transport {e : DeviceError} (h : e.isSystem = true) (port : String) :
    ∃ t, openFailure port e = .transport t := by
  rcases e with ⟨kind, message⟩
  cases kind <;> first | exact ⟨_, rfl⟩ | cases h

theorem writeFailure_transport {e : DeviceError} (h : e.isSystem = true) (port : String)
    (total : ℕ) : ∃ t, writeFailure port total e = .transport t := by
  rcases e with ⟨kind, message⟩
  cases kind <;> first | exact ⟨_, rfl⟩ | cases h

theorem flushFailure_transport {e : DeviceError} (h : e.isSystem = true) (port : String) :
    ∃ t, flushFailure port e = .transport t := by
  rcases e with ⟨kind, message⟩
  cases kind <;> first | exact ⟨_, rfl⟩ | cases h

theorem transmit_replies {P : Reply → Prop} (hcount : ∀ n, P (.count n)) (hl : ∀ r ∈ l.replies, P r)
    (data : Bytes) : P (l.transmit data).1 ∧ ∀ r ∈ (l.transmit data).2.replies, P r := by
  rcases l with ⟨port, logged, replies, total, events, log⟩
  cases replies with
  | nil => exact ⟨hcount _, hl⟩
  | cons r rest => exact List.forall_mem_cons.mp hl

end Line

/-- The ends of a delivery that a device without other errors keeps from ending well. -/
inductive Undelivered : Failure → Prop
  | transport (e : TransportError) : Undelivered (.transport e)
  | stalled (pending : ℕ) : Undelivered (.stalled pending)

inductive WriteEnd : Call → Call → Prop
  | taken {c d : Call} (hc : c.failure? = none) (hd : d.Progresses) : WriteEnd c d
  | refused {c d : Call} {e : TransportError} (hc : c.failure? = some (.transport e))
      (hd : d.Progresses) : WriteEnd c d
  | stalled {c d : Call} {n : ℕ} (hc : c.failure? = some (.stalled n)) (hd : ¬ d.Progresses) :
      WriteEnd c d

namespace WriteEnd
variable {c d : Call}

/-- A failure of a write is none of the transport just where the device took nothing. -/
theorem progresses_iff (h : WriteEnd c d) :
    (∀ e, c.failure? = some e → ∃ t, e = .transport t) ↔ d.Progresses := by
  cases h with
  | taken hc hd => exact iff_of_true (by simp [hc]) hd
  | refused hc hd => exact iff_of_true (by simp [hc]) hd
  | stalled hc hd => exact iff_of_false (by simp [hc]) hd

theorem undelivered (h : WriteEnd c d) {e : Failure} (he : c.failure? = some e) :
    Undelivered e := by
  cases h with
  | taken hc _ => cases hc.symm.trans he
  | refused hc _ =>
    cases hc.symm.trans he
    exact .transport _
  | stalled hc _ =>
    cases hc.symm.trans he
    exact .stalled _

end WriteEnd

theorem Line.write_ends {l : Line} {data : Bytes} (hd : data ≠ [])
    (hl : ∀ r ∈ l.replies, r.Ordinary) :
    ∃ d : Call, (l.write data).2.calls = l.calls ++ [d] ∧
      (∀ r ∈ (l.write data).2.replies, r.Ordinary) ∧ WriteEnd ⟨data, (l.write data).1⟩ d := by
  have hcalls := calls_transmit data l
  obtain ⟨hreply, hrest⟩ := transmit_replies (P := Reply.Ordinary) Reply.ordinary_count hl data
  unfold write
  generalize l.transmit data = outcome at hcalls hreply hrest ⊢
  rcases outcome with ⟨reply, t⟩
  refine ⟨⟨data, reply.result⟩, ?_, ?_, ?_⟩
  · cases reply <;> exact hcalls
  · cases reply <;> exact hrest
  · cases reply with
    | error e =>
      obtain ⟨f, hf⟩ := writeFailure_transport (hreply e rfl) t.port t.total
      exact .refused (congrArg some hf) (Call.progresses_error _)
    | count n =>
      by_cases hn : n ≤ 0
      · have hstalled : (Call.mk data (.ok (some n))).failure? = some (.stalled data.length) := by
          simp [Call.failure?, hn]
        exact .stalled hstalled fun h => absurd (h n rfl) (by omega)
      · have hpass : (Call.mk data (.ok (some n))).failure? = none := by simp [Call.failure?, hn]
        refine .taken hpass ?_
        rintro m ⟨⟩
        omega
    | all =>
      have hpos := List.length_pos_iff.mpr hd
      exact .taken (by simp [Call.failure?, hd]) Call.progresses_none

/-- The calls of a delivery over a line, and those that the device gets, end alike. -/
theorem Ran.ends {l t : Line} {calls : List Call} (h : Ran Line.write l calls t)
    (hdata : ∀ c ∈ calls, c.data ≠ []) (hl : ∀ r ∈ l.replies, r.Ordinary) :
    ∃ seen, t.calls = l.calls ++ seen ∧ List.Forall₂ WriteEnd calls seen := by
  induction h with
  | done l => exact ⟨[], by simp, .nil⟩
  | @step l t c calls hc _ ih =>
    obtain ⟨hcdata, hcalls⟩ := List.forall_mem_cons.mp hdata
    obtain ⟨d, hrecord, hreplies, hend⟩ := Line.write_ends hcdata hl
    obtain ⟨seen, hseen, hends⟩ := ih hcalls hreplies
    rw [hc] at hend
    refine ⟨d :: seen, ?_, .cons hend hends⟩
    rw [hseen, hrecord, List.append_assoc, List.singleton_append]

/-- Some write fails with an error that is none of the transport just where the device took nothing of
some write. -/
theorem forall_progresses_iff {calls seen : List Call} (h : List.Forall₂ WriteEnd calls seen) :
    (∀ c ∈ calls, ∀ e, c.failure? = some e → ∃ t, e = .transport t) ↔ ∀ d ∈ seen, d.Progresses := by
  induction h with
  | nil => exact iff_of_true nofun nofun
  | cons hend _ ih => rw [List.forall_mem_cons, List.forall_mem_cons, hend.progresses_iff, ih]

theorem Offers.data_ne_nil {data : Bytes} {calls : List Call} {r : Except Failure Unit}
    (h : Offers data calls r) : ∀ c ∈ calls, c.data ≠ [] := by
  induction h with
  | done => simp
  | failed hd _ => exact List.forall_mem_singleton.mpr hd
  | step hd _ _ ih => exact List.forall_mem_cons.mpr ⟨hd, ih⟩

theorem Delivers.data_ne_nil {frames : List (Except Fault Bytes)} {calls : List Call}
    {r : Except Failure Unit} (h : Delivers frames calls r) : ∀ c ∈ calls, c.data ≠ [] := by
  induction h with
  | done => simp
  | unrendered => simp
  | failed ho => exact ho.data_ne_nil
  | step ho _ ih => exact List.forall_mem_append.mpr ⟨ho.data_ne_nil, ih⟩

/-- A delivery over a line ends well or with an error of the transport just where the device took
something of every write that it let pass. -/
theorem deliver_conveyed_iff (datas : List Bytes) {l : Line} (hl : ∀ r ∈ l.replies, r.Ordinary) :
    let run := deliver (counting Line.write) (datas.map .ok) { inner := l }
    ∃ seen, run.2.inner.calls = l.calls ++ seen ∧
      (Conveyed run.1 ↔ ∀ d ∈ seen, d.Progresses) := by
  intro run
  obtain ⟨calls, hran, hdelivers⟩ :=
    deliver_delivers (counting Line.write) (datas.map .ok) { inner := l }
  obtain ⟨seen, hseen, hends⟩ :=
    (hran.projects (counting_projects Line.write)).ends hdelivers.data_ne_nil hl
  refine ⟨seen, hseen, ?_⟩
  rw [← forall_progresses_iff hends]
  have hsettles : Settles datas.flatten calls run.1 := hdelivers.settles
  generalize run.1 = result at hsettles
  rcases result with e | u
  · obtain ⟨⟨before, last, rfl, hlast, hbefore⟩, -⟩ := hsettles
    constructor
    · intro he c hc f hf
      rcases List.mem_append.mp hc with hc | hc
      · rw [hbefore c hc] at hf
        cases hf
      · rw [List.mem_singleton.mp hc, hlast] at hf
        cases hf
        exact he _ rfl
    · rintro hall f ⟨⟩
      exact hall last (by simp) _ hlast
  · refine iff_of_true (conveyed_ok u) fun c hc e he => ?_
    rw [hsettles.1 c hc] at he
    cases he

theorem deliver_undelivered (datas : List Bytes) {l : Line} (hl : ∀ r ∈ l.replies, r.Ordinary)
    {e : Failure}
    (he : (deliver (counting Line.write) (datas.map .ok) { inner := l }).1 = .error e) :
    Undelivered e := by
  obtain ⟨calls, hran, hdelivers⟩ :=
    deliver_delivers (counting Line.write) (datas.map .ok) { inner := l }
  obtain ⟨seen, -, hends⟩ :=
    (hran.projects (counting_projects Line.write)).ends hdelivers.data_ne_nil hl
  have hall : ∀ c ∈ calls, ∀ e, c.failure? = some e → Undelivered e :=
    ((List.forall₂_and_left _ _).mp (hends.imp fun _ _ h => ⟨fun _ he => h.undelivered he, h⟩)).1
  have hsettles := hdelivers.settles
  rw [he] at hsettles
  obtain ⟨⟨before, last, rfl, hlast, -⟩, -⟩ := hsettles
  exact hall last (by simp) e hlast

namespace Line
variable {settings : Settings} {script : DeviceScript} {l : Line}

theorem flush_conveyed (hs : script.Ordinary) (l : Line) :
    Conveyed (l.flush script.flushError).1 := by
  unfold flush
  cases hflush : script.flushError with
  | none => exact conveyed_ok ()
  | some e =>
    rintro f ⟨⟩
    exact flushFailure_transport (hs.flushing e hflush) _

/-- A session on a line ends well or with an error of the transport where its body does. -/
theorem session_conveyed_iff {α : Type} {o : LineOptions} (ho : settings.options = .ok o)
    (hs : script.Ordinary) (hl : l.calls = []) {body : Line → Except Failure α × Line}
    (hbody : ∀ ready : Line, ready.calls = [] → ready.replies = script.replies →
      (Conveyed (body ready).1 ↔ ∀ d ∈ (body ready).2.calls, d.Progresses)) :
    let run := session settings script body l
    Conveyed run.1 ↔ ∀ d ∈ run.2.calls, d.Progresses := by
  intro run
  have hgoes : Goes settings script body l run := session_goes settings script body l
  generalize run = result at hgoes
  have hready (o : LineOptions) := hbody (l.ready settings script o)
    ((calls_ready ..).trans hl) (replies_ready ..)
  cases hgoes with
  | refused hrefused => simp [ho] at hrefused
  | unopened _ hopen =>
    refine iff_of_true ?_ ?_
    · rintro f ⟨⟩
      exact openFailure_transport (hs.opening _ hopen) _
    · rw [started, calls_record]
      change ∀ d ∈ l.calls ++ [], _
      simp [hl]
  | @failed o after e _ hopen hb =>
    have hiff := hready o
    rw [hb] at hiff
    rw [calls_close]
    exact hiff
  | @finished o after a _ hopen hb =>
    have hiff := hready o
    rw [hb] at hiff
    rw [calls_close, calls_flush]
    exact iff_of_true (Conveyed.map_iff.mpr (flush_conveyed hs _)) (hiff.mp (conveyed_ok _))

end Line

theorem Item.Encodes.size {program : Item} (h : program.Encodes) : ∃ n, program.size = .ok n := by
  unfold Item.size
  cases hwalk : program.walk with
  | ok items => exact ⟨_, rfl⟩
  | error f =>
    obtain ⟨data, hdata⟩ := h (.error f) (by simp [commandFrames, framesOf, hwalk])
    cases hdata

namespace Catalog
variable {files : List (String × String)} {c : Catalog} {id : Option String} {p : Profile}

theorem Reachable.options (hc : Reachable files c) (hp : c.resolve id = .ok p) :
    ∃ o, p.serial.options = .ok o := by
  obtain ⟨source, doc, hbuild⟩ := hc.built p (mem_of_resolve hp)
  exact Profile.options_of_build hbuild

def body (c : Catalog) (p : Profile) (program : Item) (setup : Bool) (l : Line) :
    Except Failure (ℕ × ℕ) × Line :=
  let (result, s) := c.writeJob (counting Line.write) program (some p.id) setup { inner := l }
  (result.map fun _ => (s.frames, s.bytes), s.inner)

theorem body_conveyed_iff (hc : Reachable files c) (hp : c.resolve id = .ok p) {program : Item}
    (henc : program.Encodes) (setup : Bool) {l : Line} (hl : ∀ r ∈ l.replies, r.Ordinary)
    (hcalls : l.calls = []) :
    Conveyed (c.body p program setup l).1 ↔
      ∀ d ∈ (c.body p program setup l).2.calls, d.Progresses := by
  obtain ⟨datas, hframes, -⟩ := hc.exists_render hp henc setup
  obtain ⟨seen, hseen, hiff⟩ := deliver_conveyed_iff datas hl
  rw [hcalls, List.nil_append] at hseen
  simp only [body, writeJob_eq (resolve_resolved hp), hframes, Conveyed.map_iff, hseen]
  exact hiff

theorem body_undelivered (hc : Reachable files c) (hp : c.resolve id = .ok p) {program : Item}
    (henc : program.Encodes) (setup : Bool) {l : Line} (hl : ∀ r ∈ l.replies, r.Ordinary)
    {e : Failure} (he : (c.body p program setup l).1 = .error e) : Undelivered e := by
  obtain ⟨datas, hframes, -⟩ := hc.exists_render hp henc setup
  simp only [body, writeJob_eq (resolve_resolved hp), hframes] at he
  generalize hrun : (deliver (counting Line.write) (datas.map .ok) { inner := l }).1 = run at he
  cases run with
  | ok u => cases he
  | error f =>
    cases he
    exact deliver_undelivered datas hl hrun

def report (p : Profile) : Except Failure (ℕ × ℕ) × Line → Except Failure Sent × Line
  | (.error e, l) => (.error e, l)
  | (.ok (frames, bytes), l) => (.ok ⟨p, l.port, frames, bytes⟩,
      l.say .debug s!"Sent {frames} frames, {bytes} bytes to {l.port}")

theorem report_conveyed (p : Profile) (delivery : Except Failure (ℕ × ℕ) × Line) :
    (Conveyed (report p delivery).1 ↔ Conveyed delivery.1) ∧
      (report p delivery).2.calls = delivery.2.calls := by
  rcases delivery with ⟨e | ⟨frames, bytes⟩, l⟩
  · exact ⟨by simp [report, Conveyed], rfl⟩
  · exact ⟨iff_of_true (conveyed_ok _) (conveyed_ok _), Line.calls_say ..⟩

/-- Sending over a serial line is a session with the delivery as its body. -/
theorem send_serial (hp : c.resolve id = .ok p) {program : Item} {size : ℕ}
    (hsize : program.size = .ok size) (setup : Bool) (script : DeviceScript) (l : Line) :
    ∃ message, c.send (.serial script) program id setup l = report p
      (Line.session p.serial script (c.body p program setup) (l.say .info message)) := by
  refine ⟨s!"Sending {size} commands to {l.port} using profile '{p.id}'", ?_⟩
  simp only [send, hp, hsize]
  rfl

theorem send_conveyed (hc : Reachable files c) (hp : c.resolve id = .ok p) {program : Item}
    (henc : program.Encodes) (setup : Bool) {script : DeviceScript} (hs : script.Ordinary)
    (port : String) (logged : Bool) :
    let run := c.send (.serial script) program id setup { port, logged }
    Conveyed run.1 ↔ ∀ call ∈ run.2.calls, call.Progresses := by
  intro run
  obtain ⟨size, hsize⟩ := henc.size
  obtain ⟨o, ho⟩ := hc.options hp
  obtain ⟨message, hsend⟩ := send_serial hp hsize setup script { port, logged }
  obtain ⟨hresult, hcalls⟩ := report_conveyed p (Line.session p.serial script
    (c.body p program setup) (Line.say { port, logged } .info message))
  have hsession := Line.session_conveyed_iff ho hs (l := Line.say { port, logged } .info message)
    (by rw [Line.calls_say]; rfl) fun ready hready hreplies =>
      body_conveyed_iff hc hp henc setup (hreplies ▸ hs.writing) hready
  rw [← hsend] at hresult hcalls
  rw [hresult, hcalls]
  exact hsession

/-- Where sending over such a line fails, the transport failed or the delivery stalled. -/
theorem send_undelivered (hc : Reachable files c) (hp : c.resolve id = .ok p) {program : Item}
    (henc : program.Encodes) (setup : Bool) {script : DeviceScript} (hs : script.Ordinary)
    {port : String} {e : Failure} {l : Line}
    (h : c.send (.serial script) program id setup { port } = (.error e, l)) : Undelivered e := by
  obtain ⟨size, hsize⟩ := henc.size
  obtain ⟨o, ho⟩ := hc.options hp
  obtain ⟨message, hsend⟩ := send_serial hp hsize setup script { port }
  have hgoes := Line.session_goes p.serial script (c.body p program setup) { port }
  have hreport : report p (Line.session p.serial script (c.body p program setup) { port }) =
      (.error e, l) := hsend.symm.trans h
  generalize Line.session p.serial script (c.body p program setup) { port } = run at hgoes hreport
  cases hgoes with
  | refused hrefused => simp [ho] at hrefused
  | unopened _ hopen =>
    obtain ⟨t, ht⟩ := Line.openFailure_transport (hs.opening _ hopen) port
    cases hreport
    rw [ht]
    exact .transport t
  | failed _ _ hb =>
    cases hreport
    have hreplies := Line.replies_ready { port } p.serial script
    exact body_undelivered hc hp henc setup (hreplies _ ▸ hs.writing) (congrArg Prod.fst hb)
  | @finished _ after a _ _ hb =>
    have hflush := Line.flush_conveyed hs after
    generalize (after.flush script.flushError).1 = flushed at hflush hreport
    cases flushed with
    | ok u => cases hreport
    | error f =>
      obtain ⟨t, ht⟩ := hflush f rfl
      cases hreport
      rw [ht]
      exact .transport t

/-- Sending over a line whose device raises no errors but those of the line and of the system ends well
or with an error of the transport, just where the device takes something of every write that it lets
pass. -/
theorem send_conveyed_iff (hc : Reachable files c) (hp : c.resolve id = .ok p) {program : Item}
    (henc : program.Encodes) (setup : Bool) {script : DeviceScript} (hs : script.Ordinary)
    (port : String) (logged : Bool) :
    let run := c.send (.serial script) program id setup { port, logged }
    ((∃ sent, run.1 = .ok sent) ∨ ∃ e, run.1 = .error (.transport e)) ↔
      ∀ call ∈ run.2.calls, ∀ n, call.answer = .ok (some n) → 0 < n := by
  intro run
  rw [← conveyed_iff]
  exact send_conveyed hc hp henc setup hs port logged

/-- A device that takes all that it is offered, and cannot be flushed. -/
theorem send_conveyed_iff_unflushed :
    let script : DeviceScript := { flushError := some ⟨.system, ""⟩ }
    let program : Item := .program [.command .penUp]
    script.Ordinary ∧ program.Encodes ∧
      ∃ c p, Reachable [tinyFile] c ∧ c.resolve (some "tiny") = .ok p ∧
        let run := c.send (.serial script) program (some "tiny") true { port := "line" }
        (((∃ sent, run.1 = .ok sent) ∨ ∃ e, run.1 = .error (.transport e)) ↔
          ∀ call ∈ run.2.calls, ∀ n, call.answer = .ok (some n) → 0 < n) := by
  intro script program
  have hs : script.Ordinary := ⟨nofun, nofun, by rintro e ⟨⟩; rfl⟩
  have henc : program.Encodes := fun frame hframe => ⟨_, List.mem_singleton.mp hframe⟩
  obtain ⟨c, p, hc, hp⟩ := exists_tiny
  exact ⟨hs, henc, c, p, hc, hp, send_conveyed_iff hc hp henc true hs "line" false⟩

/-- A device that takes nothing of the first write, and raises no error. -/
theorem send_unconveyed_stalled :
    let script : DeviceScript := { replies := [.count 0] }
    let program : Item := .program [.command .defaults]
    script.Ordinary ∧ program.Encodes ∧
      ∃ c p, Reachable [tinyFile] c ∧ c.resolve (some "tiny") = .ok p ∧
        let run := c.send (.serial script) program (some "tiny") false { port := "line" }
        ¬ ((∃ sent, run.1 = .ok sent) ∨ ∃ e, run.1 = .error (.transport e)) := by
  intro script program
  have hs : script.Ordinary :=
    ⟨nofun, List.forall_mem_singleton.mpr (Reply.ordinary_count 0), nofun⟩
  have henc : program.Encodes := fun frame hframe => ⟨_, List.mem_singleton.mp hframe⟩
  have hstalls : ((load [tinyFile] {}).2.toOption.bind fun c =>
      (c.resolve (some "tiny")).toOption.bind fun _ =>
        error? (c.send (.serial script) program (some "tiny") false { port := "line" }).1) =
      some (.stalled 3) := by
    decide +kernel
  obtain ⟨c, hc, hstalls⟩ := Option.bind_eq_some_iff.mp hstalls
  obtain ⟨p, hp, hstalls⟩ := Option.bind_eq_some_iff.mp hstalls
  have hreached : Reachable [tinyFile] c := .loaded (toOption_eq_some hc)
  refine ⟨hs, henc, c, p, hreached, toOption_eq_some hp, ?_⟩
  simp [error?_eq_some hstalls]

end Catalog

end PenPlotter
