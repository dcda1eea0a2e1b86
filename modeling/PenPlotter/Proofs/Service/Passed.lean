import PenPlotter.Proofs.Job.Built
import PenPlotter.Proofs.Serial.InStep
import PenPlotter.Proofs.Service.Delivered
/-! # Sending to a willing device

A device that opens and flushes and takes something of every write gets a whole program: sending it never
fails, and all that happens on the port are writes between opening, flushing and closing.
-/
namespace PenPlotter
open Text

/-- A job that is read can be rendered. -/
theorem Job.load_encodes {w : World} {path : PathName} {cs : List Command}
    (h : Job.load w path = .ok cs) : (Item.program (cs.map .command)).Encodes := by
  obtain ⟨doc, -, hbuild⟩ := bind_eq_ok.mp h
  intro frame hframe
  obtain ⟨item, hitem, rfl⟩ := List.mem_map.mp hframe
  obtain ⟨c, hc, rfl⟩ := List.mem_map.mp hitem
  obtain ⟨t, -, hframe, -⟩ := Item.commandFrame_numeric (build_numeric hbuild c hc)
  exact ⟨_, hframe⟩

def Reply.Takes : Reply → Prop
  | .all => True
  | .count n => 0 < n
  | .error _ => False

/-- A device that raises no error and takes something of every write. -/
structure DeviceScript.Willing (script : DeviceScript) : Prop where
  opens : script.openError = none
  takes : ∀ r ∈ script.replies, r.Takes
  flushes : script.flushError = none

namespace Line

theorem transmit_takes {data : Bytes} (hd : data ≠ []) {l : Line} (hl : ∀ r ∈ l.replies, r.Takes) :
    (l.transmit data).1.Takes ∧ ∀ r ∈ (l.transmit data).2.replies, r.Takes := by
  rcases l with ⟨port, logged, replies, total, events, log⟩
  cases replies with
  | nil =>
    have hlength : 0 < data.length := List.length_pos_iff.mpr hd
    exact ⟨Int.natCast_pos.mpr hlength, hl⟩
  | cons r rest => exact List.forall_mem_cons.mp hl

theorem write_takes {data : Bytes} (hd : data ≠ []) {l : Line} (hl : ∀ r ∈ l.replies, r.Takes) :
    (Call.mk data (l.write data).1).failure? = none ∧
      (∀ r ∈ (l.write data).2.replies, r.Takes) ∧
      ∃ reply, (l.write data).2.events = l.events ++ [.wrote data reply] := by
  obtain ⟨htakes, hrest⟩ := transmit_takes hd hl
  have hevents : (l.transmit data).2.events = l.events ++ [.wrote data (l.transmit data).1] := rfl
  unfold write
  generalize l.transmit data = outcome at htakes hrest hevents ⊢
  rcases outcome with ⟨reply, t⟩
  cases reply with
  | error e => exact htakes.elim
  | count n =>
    have hn : ¬n ≤ 0 := Int.not_le.mpr htakes
    exact ⟨by simp [Call.failure?, hn], hrest, _, hevents⟩
  | all => exact ⟨by simp [Call.failure?, hd], hrest, _, hevents⟩

end Line

theorem Ran.takes {l t : Line} {calls : List Call} (h : Ran Line.write l calls t)
    (hdata : ∀ c ∈ calls, c.data ≠ []) (hl : ∀ r ∈ l.replies, r.Takes) :
    (∀ c ∈ calls, c.failure? = none) ∧
      ∃ writes, t.events = l.events ++ writes ∧ ∀ e ∈ writes, e.IsWrite := by
  induction h with
  | done l => exact ⟨nofun, [], (List.append_nil _).symm, nofun⟩
  | @step l t c calls hc _ ih =>
    obtain ⟨hcdata, hcalls⟩ := List.forall_mem_cons.mp hdata
    obtain ⟨hpass, hreplies, reply, hevents⟩ := Line.write_takes hcdata hl
    obtain ⟨hrest, writes, hwrites, hall⟩ := ih hcalls hreplies
    rw [hc] at hpass
    refine ⟨List.forall_mem_cons.mpr ⟨hpass, hrest⟩, .wrote c.data reply :: writes, ?_, ?_⟩
    · rw [hwrites, hevents, List.append_assoc, List.singleton_append]
    · exact List.forall_mem_cons.mpr ⟨⟨c.data, reply, rfl⟩, hall⟩

theorem deliver_takes (datas : List Bytes) {l : Line} (hl : ∀ r ∈ l.replies, r.Takes) :
    let run := deliver (counting Line.write) (datas.map .ok) { inner := l }
    run.1 = .ok () ∧
      ∃ writes, run.2.inner.events = l.events ++ writes ∧ ∀ e ∈ writes, e.IsWrite := by
  intro run
  obtain ⟨calls, hran, hdelivers⟩ :=
    deliver_delivers (counting Line.write) (datas.map .ok) { inner := l }
  obtain ⟨hpass, hwrites⟩ :=
    (hran.projects (counting_projects Line.write)).takes hdelivers.data_ne_nil hl
  refine ⟨?_, hwrites⟩
  have hsettles : Settles datas.flatten calls run.1 := hdelivers.settles
  generalize run.1 = result at hsettles
  rcases result with e | u
  · obtain ⟨⟨before, last, rfl, hlast, -⟩, -⟩ := hsettles
    rw [hpass last (by simp)] at hlast
    cases hlast
  · rfl

namespace Line

/-- A session with a willing device whose body ends well. -/
theorem session_willing {α : Type} {settings : Settings} {o : LineOptions}
    (ho : settings.options = .ok o) {script : DeviceScript} (hs : script.Willing) {l after : Line}
    {body : Line → Except Failure α × Line} {a : α}
    (hbody : body (l.ready settings script o) = (.ok a, after)) :
    session settings script body l = (.ok a, (after.record .flushed).close) := by
  unfold ready started at hbody
  unfold session
  rw [ho, hs.opens, hs.flushes]
  dsimp only
  rw [hbody]
  rfl

inductive Served (port : String) : List LineEvent → Prop
  | mk {options : LineOptions} {writes : List LineEvent} (hwrites : ∀ e ∈ writes, e.IsWrite) :
      Served port (.opened port (some options) :: writes ++ [.flushed, .closed])

theorem close_events (l : Line) : l.close.events = l.events ++ [.closed] := by
  unfold close
  rw [events_say]
  rfl

end Line

namespace Catalog
variable {files : List (String × String)} {c : Catalog} {id : Option String} {p : Profile}

/-- A willing device gets the rendering of a program. -/
theorem send_served (hc : Reachable files c) (hp : c.resolve id = .ok p) {program : Item}
    (henc : program.Encodes) (setup : Bool) {script : DeviceScript} (hs : script.Willing)
    (port : String) :
    ∃ sent l out, c.send (.serial script) program id setup { port } = (.ok sent, l) ∧
      c.render program id setup = .ok out ∧ takenBy l.calls = out ∧ Line.Served port l.events := by
  obtain ⟨size, hsize⟩ := henc.size
  obtain ⟨o, ho⟩ := hc.options hp
  obtain ⟨message, hsend⟩ := send_serial hp hsize setup script { port }
  obtain ⟨datas, hframes, -⟩ := hc.exists_render hp henc setup
  have hready : ∀ r ∈ (Line.ready { port } p.serial script o).replies, r.Takes :=
    Line.replies_ready { port } p.serial script o ▸ hs.takes
  obtain ⟨hdelivered, writes, hevents, hwrites⟩ := deliver_takes datas hready
  obtain ⟨counts, after, hbody, hafter⟩ : ∃ counts after,
      c.body p program setup (Line.ready { port } p.serial script o) = (.ok counts, after) ∧
        after.events = (Line.ready { port } p.serial script o).events ++ writes := by
    simp only [body, writeJob_eq (resolve_resolved hp), hframes, hdelivered]
    exact ⟨_, _, rfl, hevents⟩
  have hsession := Line.session_willing ho hs hbody
  have hreport : c.send (.serial script) program id setup { port } =
      (.ok ⟨p, _, counts.1, counts.2⟩, ((after.record .flushed).close).say .debug _) :=
    hsend.trans (congrArg (report p) hsession)
  obtain ⟨q, size', out, seen, -, -, hout, hcalls, htaken, -⟩ := send_counts hreport
  refine ⟨_, _, out, hreport, hout, ?_, ?_⟩
  · rw [hcalls]
    exact htaken
  · rw [Line.events_say, Line.close_events]
    change Line.Served port ((after.events ++ [.flushed]) ++ [.closed])
    rw [hafter, Line.events_ready rfl, List.append_assoc]
    exact .mk hwrites

end Catalog

end PenPlotter
