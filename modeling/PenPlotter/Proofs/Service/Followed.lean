import PenPlotter.Proofs.Serial.InStep
import PenPlotter.Proofs.Service.Delivered
/-! # Sending as writing

Sending a program over a serial line makes the same writes as writing it to the device itself, with the
same answers, and it gets as far. The line is opened for the profile that writing means too, and what is
reported is for that profile.
-/
namespace PenPlotter
open Text

namespace Catalog
variable {files : List (String × String)} {c : Catalog} {id : Option String} {p : Profile}

/-- Of the error that no profile is meant, the kind. -/
theorem unknown_of_resolve {e : Failure} (h : c.resolve id = .error e) :
    ∃ wanted known, e = .unknownProfile wanted known :=
  ⟨_, _, (resolve_eq_error.mp h).2⟩

/-- The body of a session makes the writes of the program on the bare device, and ends well where they
do. -/
theorem body_follows (hp : c.resolve id = .ok p) (program : Item) (setup : Bool) {ready bare : Line}
    (hreplies : ready.replies = bare.replies) (hbare : bare.events = []) :
    let written := c.writeJob Line.bareWrite program id setup bare
    ((∃ counts, (c.body p program setup ready).1 = .ok counts) ↔ ∃ q, written.1 = .ok q) ∧
      (c.body p program setup ready).2.events = ready.events ++ written.2.events ∧
      ∀ e ∈ written.2.events, e.IsWrite := by
  intro written
  have hstart : Line.Follows ready.events { inner := ready } bare :=
    ⟨hreplies, by rw [hbare, List.append_nil]⟩
  obtain ⟨hiff, hfollows⟩ :=
    deliver_inStep (Line.write_inStep ready.events) (p.frames setup program) hstart
  obtain ⟨calls, hran, -⟩ := deliver_delivers Line.bareWrite (p.frames setup program) bare
  obtain ⟨writes, hwrites, hall⟩ := Line.bareWrite_events hran
  rw [hbare, List.nil_append] at hwrites
  have hwritten : written = ((deliver Line.bareWrite (p.frames setup program) bare).1.map fun _ => p,
      (deliver Line.bareWrite (p.frames setup program) bare).2) := writeJob_eq hp _ _
  have hexists {α β : Type} {r : Except Failure α} {f : α → β} :
      (∃ b, r.map f = .ok b) ↔ ∃ a, r = .ok a := by
    cases r with
    | error e => exact iff_of_false (fun ⟨_, h⟩ => nomatch h) (fun ⟨_, h⟩ => nomatch h)
    | ok a => exact iff_of_true ⟨f a, rfl⟩ ⟨a, rfl⟩
  have hunit {r : Except Failure Unit} : (∃ u, r = .ok u) ↔ r = .ok () :=
    ⟨fun ⟨_, h⟩ => h, fun h => ⟨(), h⟩⟩
  rw [hwritten]
  refine ⟨?_, ?_, ?_⟩
  · simp only [body, writeJob_eq (resolve_resolved hp), hexists, hunit]
    exact hiff
  · simp only [body, writeJob_eq (resolve_resolved hp)]
    exact hfollows.events
  · rw [hwrites]
    exact hall

theorem report_result (p : Profile) (delivery : Except Failure (Nat × Nat) × Line) :
    ((∃ sent, (report p delivery).1 = .ok sent) ↔ ∃ counts, delivery.1 = .ok counts) ∧
      (∀ sent, (report p delivery).1 = .ok sent → sent.profile = p) ∧
      (report p delivery).2.events = delivery.2.events := by
  rcases delivery with ⟨e | ⟨frames, bytes⟩, l⟩
  · exact ⟨by simp [report], nofun, rfl⟩
  · refine ⟨iff_of_true ⟨_, rfl⟩ ⟨_, rfl⟩, ?_, Line.events_say ..⟩
    rintro sent ⟨⟩
    rfl

/-- Without a profile nothing is opened. With one, on a device that opens, the line is opened once with
the profile's settings, the writes and their answers are those of writing the program to the device
itself, the flush comes behind them just where that ends well, and what is reported is for the same
profile. -/
theorem send_follows (hc : Reachable files c) (items : List Item) (id : Option String)
    (setup : Bool) (script : DeviceScript) (port : String) (logged : Bool) :
    let run := c.send (.serial script) (.program items) id setup { port, logged }
    let written := c.writeJob Line.bareWrite (.program items) id setup
      { port, replies := script.replies }
    (∀ e, c.resolve id = .error e →
      (∃ wanted known, e = .unknownProfile wanted known) ∧ run = (.error e, { port, logged })) ∧
    ∀ p, c.resolve id = .ok p → script.openError = none →
      (∀ e ∈ written.2.events, e.IsWrite) ∧ ∃ o, p.serial.options = .ok o ∧
        run.2.events = .opened port (some o) :: written.2.events ++ Line.ending written.1 ∧
        ((∃ sent, run.1 = .ok sent) ↔ (∃ q, written.1 = .ok q) ∧ script.flushError = none) ∧
        ∀ sent, run.1 = .ok sent → sent.profile = p := by
  intro run written
  constructor
  · intro e he
    refine ⟨unknown_of_resolve he, ?_⟩
    simp only [run, send, he]
  · intro p hp hopen
    obtain ⟨o, ho⟩ := hc.options hp
    have hsize : (Item.program items).size = .ok items.length := rfl
    obtain ⟨message, hsend⟩ := send_serial hp hsize setup script { port, logged }
    obtain ⟨log, hsay⟩ := Line.say_eq { port, logged } .info message
    rw [hsay] at hsend
    let l : Line := { port, logged, log }
    obtain ⟨hok, hprofile, hreport⟩ :=
      report_result p (Line.session p.serial script (c.body p (.program items) setup) l)
    rw [← hsend] at hok hprofile hreport
    obtain ⟨hrun, hends⟩ := Line.session_cases ho hopen (c.body p (.program items) setup) l
    let bare : Line := { port, replies := script.replies }
    have hreplies : (l.ready p.serial script o).replies = bare.replies := Line.replies_ready ..
    obtain ⟨hphase, hbody, hwrites⟩ := body_follows hp (.program items) setup hreplies rfl
    refine ⟨hwrites, o, ho, ?_, ?_, hprofile⟩
    · rw [hreport, hrun, hbody, Line.events_ready rfl, Line.ending_congr hphase]
      rfl
    · rw [hok, hends, hphase]

/-- A device that takes one byte of the first frame, and a program that ends in no command. -/
theorem send_follows_short :
    let items : List Item := [.command .penUp, .plain .null]
    let script : DeviceScript := { replies := [.count 1] }
    ∃ c p, Reachable [tinyFile] c ∧ c.resolve (some "tiny") = .ok p ∧
      let run := c.send (.serial script) (.program items) (some "tiny") true { port := "line" }
      let written := c.writeJob Line.bareWrite (.program items) (some "tiny") true
        { port := "line", replies := script.replies }
      ∃ o, p.serial.options = .ok o ∧
        run.2.events = .opened "line" (some o) :: written.2.events ++ Line.ending written.1 := by
  intro items script
  obtain ⟨c, p, hc, hp⟩ := exists_tiny
  obtain ⟨-, hfound⟩ := send_follows hc items (some "tiny") true script "line" false
  obtain ⟨-, o, ho, hevents, -⟩ := hfound p hp rfl
  exact ⟨c, p, hc, hp, o, ho, hevents⟩

end Catalog

end PenPlotter
