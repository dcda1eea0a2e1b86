import PenPlotter.Proofs.Delivery.Counting
import PenPlotter.Proofs.Plot.Framing
import PenPlotter.Proofs.Profile.Loaded
import PenPlotter.Proofs.Serial.Calls
import PenPlotter.Proofs.Serial.Session
import PenPlotter.Proofs.Service.Render
/-! # What a program that was sent reports

A program that was sent is across as its rendering. The counts of the report are those of the writes
that were tried: every short write is one frame more, and the bytes that it left are counted again when
they are offered again.
-/
namespace PenPlotter
open Text

/-! ## Frames -/

def Profile.setupCount (p : Profile) (setup : Bool) : Nat := if setup then p.setup.length else 0

theorem Profile.frame_ne_nil {p : Profile} {setup : Bool} {program : Item} {data : Bytes}
    (h : .ok data ∈ p.frames setup program) : data ≠ [] := by
  rcases List.mem_append.mp h with h | h
  · cases setup with
    | false => cases h
    | true =>
      obtain ⟨i, -, hi⟩ := List.mem_map.mp h
      exact Instruction.frame_ne_nil hi
  · obtain ⟨item, hitem⟩ := Item.mem_framesOf h
    exact Item.commandFrame_ne_nil hitem

theorem Profile.frames_length {p : Profile} {setup : Bool} {program : Item} {size : Nat}
    (h : program.size = .ok size) :
    (p.frames setup program).length = p.setupCount setup + size := by
  unfold Item.size at h
  rw [frames, List.length_append, Item.commandFrames, Item.framesOf, setupCount]
  split at h
  next items hwalk =>
    cases h
    cases setup <;> simp
  · cases h

/-! ## Sessions -/

/-- A session that ends well runs its body on the open line, whose sink reports truly, and makes no
other writes. -/
theorem Transport.session_ok {α : Type} {t : Transport} {settings : Settings}
    {body : Sink Line → Line → Except Failure α × Line} {l l' : Line} {a : α}
    (h : t.session settings body l = (.ok a, l')) :
    ∃ write ready after, Line.Reports write ∧ body write ready = (.ok a, after) ∧
      ready.calls = l.calls ∧ l'.calls = after.calls := by
  cases t with
  | plain replies =>
    simp only [session, Line.plainSession] at h
    generalize hready : { l with replies }.record (.opened l.port none) = ready at h
    obtain ⟨hresult, rfl⟩ := Prod.mk.inj h
    refine ⟨Line.bareWrite, ready, _, Line.bareWrite_reports, Prod.ext hresult rfl, ?_, ?_⟩
    · rw [← hready, Line.calls_record]
      exact List.append_nil _
    · rw [Line.calls_record]
      exact List.append_nil _
  | serial script =>
    obtain ⟨o, after, -, hbody, rfl⟩ := Line.session_eq_ok h
    exact ⟨Line.write, _, after, Line.write_reports, hbody, Line.calls_ready .., by simp⟩

namespace Catalog
variable {c : Catalog} {t : Transport} {program : Item} {id : Option String} {setup : Bool}
  {l l' : Line} {sent : Sent}

/-- A program that was sent was delivered, counted, in a session of its profile. -/
theorem send_eq_ok (h : c.send t program id setup l = (.ok sent, l')) :
    ∃ p size write ready after, c.resolve id = .ok p ∧ program.size = .ok size ∧
      Line.Reports write ∧ ready.calls = l.calls ∧ l'.calls = after.inner.calls ∧
      deliver (counting write) (p.frames setup program) { inner := ready } = (.ok (), after) ∧
      sent.profile = p ∧ sent.frames = after.frames ∧ sent.bytes = after.bytes := by
  unfold send at h
  cases hp : c.resolve id with
  | error e => simp [hp] at h
  | ok p =>
    cases hsize : program.size with
    | error f => simp [hp, hsize] at h
    | ok size =>
      -- The body looks the profile up once more, by its own identifier.
      simp only [hp, hsize, writeJob_eq (resolve_resolved hp)] at h
      generalize hl : l.say .info _ = noted at h
      split at h
      · cases h
      next frames bytes after hsession =>
        obtain ⟨write, ready, t', hwrite, hbody, hready, hafter⟩ := Transport.session_ok hsession
        obtain ⟨hresult, rfl⟩ := Prod.mk.inj hbody
        obtain ⟨q, hq, hcounts⟩ := map_eq_ok.mp hresult
        obtain ⟨u, hdeliver, -⟩ := map_eq_ok.mp hq
        obtain ⟨hframes, hbytes⟩ := Prod.mk.inj hcounts
        obtain ⟨hsent, rfl⟩ := Prod.mk.inj h
        cases hsent
        refine ⟨p, size, write, ready, _, rfl, rfl, hwrite, ?_, ?_, Prod.ext hdeliver rfl, rfl,
          hframes.symm, hbytes.symm⟩
        · rw [hready, ← hl, Line.calls_say]
        · rw [Line.calls_say, hafter]

theorem send_counts (h : c.send t program id setup l = (.ok sent, l')) :
    ∃ p size out seen, c.resolve id = .ok p ∧ program.size = .ok size ∧
      c.render program id setup = .ok out ∧ l'.calls = l.calls ++ seen ∧ takenBy seen = out ∧
      (∀ call ∈ seen, call.failure? = none) ∧ sent.profile = p ∧
      sent.frames = p.setupCount setup + size + shortCalls seen ∧
      sent.bytes = out.length + leftBy seen := by
  obtain ⟨p, size, write, ready, after, hp, hsize, hwrite, hready, hafter, hdeliver, hprofile,
    hframes, hbytes⟩ := send_eq_ok h
  obtain ⟨datas, calls, hdatas, hran, htaken, hpass, hcountedFrames, hcountedBytes⟩ :=
    deliver_counted hdeliver fun data hdata => Profile.frame_ne_nil hdata
  obtain ⟨seen, hseen, hseenPass, hseenTaken, hshort, hleft⟩ := hran.reported hwrite hpass
  refine ⟨p, size, datas.flatten, seen, hp, hsize, (render_eq_ok hp).mpr ⟨datas, hdatas, rfl⟩,
    ?_, hseenTaken.trans htaken, hseenPass, hprofile, ?_, ?_⟩
  · rw [hafter, hseen, hready]
  · rw [hframes, hshort, ← Profile.frames_length hsize, hcountedFrames]
  · rw [hbytes, hleft, hcountedBytes]

/-- A program that was sent is across as its rendering. The report counts the bytes of the rendering,
the set-up instructions and the commands just where no write was short. -/
theorem send_report_iff {port : String} {logged : Bool}
    (h : c.send t program id setup { port, logged } = (.ok sent, l')) :
    ∃ p size out, c.resolve id = .ok p ∧ program.size = .ok size ∧
      c.render program id setup = .ok out ∧ takenBy l'.calls = out ∧ sent.profile = p ∧
      ((sent.bytes = out.length ∧ sent.frames = p.setupCount setup + size) ↔
        ∀ call ∈ l'.calls, ¬ call.Short) := by
  obtain ⟨p, size, out, seen, hp, hsize, hout, hseen, htaken, hpass, hprofile, hframes, hbytes⟩ :=
    send_counts h
  have hcalls : l'.calls = seen := hseen
  refine ⟨p, size, out, hp, hsize, hout, hcalls ▸ htaken, hprofile, ?_⟩
  rw [hcalls, hframes, hbytes]
  constructor
  · rintro ⟨hleft, -⟩
    exact (leftBy_eq_zero hpass).mp (by omega)
  · intro hnone
    rw [(leftBy_eq_zero hpass).mpr hnone, shortCalls_eq_zero.mpr hnone]
    exact ⟨rfl, rfl⟩

def single : Catalog := [{ id := "single", name := [] }]

/-- A line that takes three bytes of the first frame and all of the others. -/
theorem send_report_iff_short :
    ∃ sent l', single.send (.serial { replies := [.count 3] }) (.program [.command .penUp])
        (some "single") true { port := "line" } = (.ok sent, l') ∧
      ∃ p size out, single.resolve (some "single") = .ok p ∧
        (Item.program [.command .penUp]).size = .ok size ∧
        single.render (.program [.command .penUp]) (some "single") true = .ok out ∧
        takenBy l'.calls = out ∧ sent.profile = p ∧
        ((sent.bytes = out.length ∧ sent.frames = p.setupCount true + size) ↔
          ∀ call ∈ l'.calls, ¬ call.Short) := by
  obtain ⟨sent, l', h⟩ := exists_ok (r := single.send (.serial { replies := [.count 3] })
    (.program [.command .penUp]) (some "single") true { port := "line" }) (by decide +kernel)
  exact ⟨sent, l', h, send_report_iff h⟩

/-- A line that takes one byte of a frame of three: the report has two frames and five bytes. -/
theorem send_report_overcounts :
    let run := single.send (.plain [.count 1]) (.program [.command .defaults]) (some "single") false
      { port := "line" }
    (single.render (.program [.command .defaults]) (some "single") false).toOption.map List.length =
        some 3 ∧ run.1.toOption.map (fun sent => (sent.frames, sent.bytes)) = some (2, 5) ∧
      (takenBy run.2.calls).length = 3 := by
  decide +kernel

end Catalog

end PenPlotter
