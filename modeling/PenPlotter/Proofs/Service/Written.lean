import PenPlotter.Proofs.Delivery.Recording
import PenPlotter.Proofs.Profile.Loaded
import PenPlotter.Proofs.Service.Render
/-! # Writing a program to a sink

Whatever a sink answers, a program that can be rendered gets across as its rendering, or the writing
stops at the first call that fails with only a part of the rendering across.
-/
namespace PenPlotter
open Text

namespace Catalog
variable {files : List (String × String)} {c : Catalog} {id : Option String} {p : Profile}

/-- For a profile that was loaded, a program has bytes where its commands have. -/
theorem Reachable.exists_render (hc : Reachable files c) (hp : c.resolve id = .ok p)
    {program : Item} (henc : program.Encodes) (setup : Bool) :
    ∃ datas : List Bytes, p.frames setup program = datas.map .ok ∧
      c.render program id setup = .ok datas.flatten := by
  have hframes : ∀ frame ∈ p.frames setup program, ∃ data, frame = .ok data := by
    rw [Profile.frames, List.forall_mem_append]
    refine ⟨?_, henc⟩
    cases setup with
    | false => simp
    | true =>
      intro frame hframe
      obtain ⟨i, hi, rfl⟩ := List.mem_map.mp hframe
      exact hc.setup_frames hp i hi
  obtain ⟨datas, hdatas⟩ := exists_map_ok.mp hframes
  exact ⟨datas, hdatas, (render_eq_ok hp).mpr ⟨datas, hdatas, rfl⟩⟩

/-- Writing a program ends well just where the bytes that the sink took are the rendering. Otherwise
they are a proper prefix of it, and the writing stopped at the first call that failed, with the sink's
own failure or because the sink took nothing. -/
theorem writeJob_recording (hc : Reachable files c) (hp : c.resolve id = .ok p) {program : Item}
    (henc : program.Encodes) (setup : Bool) {σ : Type} (write : Sink σ) (s : σ) :
    ∃ out, c.render program id setup = .ok out ∧
      let run := c.writeJob (recording write) program id setup { inner := s }
      c.writeJob write program id setup s = (run.1, run.2.inner) ∧
      ((∃ q, run.1 = .ok q) ↔ takenBy run.2.calls = out) ∧
      (∀ q, run.1 = .ok q → q = p) ∧
      ∀ e, run.1 = .error e →
        StoppedBy e run.2.calls ∧ takenBy run.2.calls <+: out ∧ takenBy run.2.calls ≠ out := by
  obtain ⟨datas, hframes, hrender⟩ := hc.exists_render hp henc setup
  refine ⟨_, hrender, ?_⟩
  -- The sink that records changes as the sink itself does, and keeps the calls that are due.
  have hview := deliver_projects (recording_projects write) (p.frames setup program) ⟨s, []⟩
  obtain ⟨calls, hran, hdelivers⟩ :=
    deliver_delivers (recording write) (p.frames setup program) ⟨s, []⟩
  have hcalls := hran.recorded
  rw [List.nil_append] at hcalls
  rw [hframes] at hdelivers
  have hsettles := hdelivers.settles
  rw [← hframes, ← hcalls] at hsettles
  rw [writeJob_eq hp, writeJob_eq hp]
  dsimp only at hview ⊢
  rw [hview]
  refine ⟨rfl, ?_⟩
  rw [← hsettles.ok_iff]
  generalize deliver (recording write) (p.frames setup program) ⟨s, []⟩ = run at hsettles ⊢
  rcases run with ⟨e | u, t⟩
  · obtain ⟨hstop, pending, hne, hsum⟩ := hsettles
    refine ⟨?_, ?_, ?_⟩
    · simp [Except.map]
    · intro q hq
      cases hq
    · rintro e ⟨⟩
      refine ⟨hstop, ⟨pending, hsum⟩, fun hall => hne ?_⟩
      exact List.append_right_eq_self.mp (hsum.trans hall.symm)
  · refine ⟨?_, ?_, ?_⟩
    · simp [Except.map]
    · rintro q ⟨⟩
      rfl
    · intro e he
      cases he

/-- A sink that takes a byte at a time. -/
theorem writeJob_recording_byByte :
    ∃ c p, Reachable [tinyFile] c ∧ c.resolve (some "tiny") = .ok p ∧
      ∃ out, c.render (.program [.command .penUp]) (some "tiny") true = .ok out ∧
        let write : Sink Unit := fun _ u => (.ok (some 1), u)
        let run := c.writeJob (recording write) (.program [.command .penUp]) (some "tiny") true
          { inner := () }
        ((∃ q, run.1 = .ok q) ↔ takenBy run.2.calls = out) := by
  obtain ⟨c, p, hc, hp⟩ := exists_tiny
  have henc : (Item.program [.command .penUp]).Encodes := by
    intro frame hframe
    exact ⟨_, List.mem_singleton.mp hframe⟩
  obtain ⟨out, hout, -, hiff, -⟩ :=
    writeJob_recording hc hp henc true (fun _ u => (.ok (some 1), u)) ()
  exact ⟨c, p, hc, hp, out, hout, hiff⟩

end Catalog

end PenPlotter
