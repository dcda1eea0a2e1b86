import PenPlotter.Proofs.Delivery.Recording
import PenPlotter.Proofs.Result
import PenPlotter.Service.Send
/-! # Rendering a program for a profile

The bytes of a program are those of its frames, which are the profile's set-up frames and the frames of
its commands. They exist just where the profile does and every frame can be rendered, and writing the
program to a sink delivers the same frames. A sink that keeps all it is offered has these bytes in the
end, or meets their fault.
-/
namespace PenPlotter
open Text

def Item.Encodes (program : Item) : Prop := ∀ frame ∈ program.commandFrames, ∃ data, frame = .ok data

/-! ## Sinks that keep all -/

theorem offer_keeping (data s : Bytes) : offer keeping data s = (.ok (), s ++ data) := by
  by_cases hd : data = []
  · rw [hd, offer_nil, List.append_nil]
  · have hpass : (Call.mk data (keeping data s).1).failure? = none := by
      simp [Call.failure?, keeping, hd]
    have htaken : (Call.mk data (keeping data s).1).taken = data := List.take_length
    rw [offer_call keeping hd, hpass, htaken, List.drop_length]
    exact offer_nil keeping (s ++ data)

/-- It keeps the bytes of all frames, up to the fault of the first that has none. -/
theorem kept_deliver (frames : List (Except Fault Bytes)) (s : Bytes) :
    kept (deliver keeping frames s) =
      ((frames.mapM fun f => f).mapError .fault).map fun datas => s ++ datas.flatten := by
  induction frames generalizing s with
  | nil => exact congrArg Except.ok (List.append_nil s).symm
  | cons frame frames ih =>
    cases frame with
    | error f => rfl
    | ok data =>
      rw [deliver, offer_keeping]
      dsimp only
      rw [ih, List.mapM_cons]
      cases frames.mapM fun f => f with
      | error f => rfl
      | ok datas => exact congrArg Except.ok (List.append_assoc s data datas.flatten)

theorem Item.encodeAll_eq_kept (items : List Item) :
    (encodeAll items).mapError .fault = kept (deliver keeping (items.map commandFrame) []) := by
  have hframes : ((items.map commandFrame).mapM fun f => f) = items.mapM commandFrame := List.mapM_map
  rw [kept_deliver, hframes]
  unfold encodeAll
  cases items.mapM commandFrame <;> rfl

namespace Catalog
variable {c : Catalog} {program : Item} {id : Option String} {setup : Bool} {p : Profile}

theorem render_unresolved {e : Failure} (h : c.resolve id = .error e) (program : Item)
    (setup : Bool) : c.render program id setup = .error e := by
  unfold render
  rw [h]
  rfl

theorem render_of_resolve (hp : c.resolve id = .ok p) : c.render program id setup = (do
    let frames ← ((p.frames setup program).mapM fun f => f).mapError .fault
    return frames.flatten) := by
  unfold render
  rw [hp]
  rfl

/-- A program has bytes for a profile just where all its frames have. -/
theorem render_eq_ok (hp : c.resolve id = .ok p) {out : Bytes} :
    c.render program id setup = .ok out ↔
      ∃ datas : List Bytes, p.frames setup program = datas.map .ok ∧ datas.flatten = out := by
  simp only [render_of_resolve hp, bind_eq_ok, mapError_eq_ok, mapM_eq_ok, List.map_id']
  constructor
  · rintro ⟨datas, hframes, hout⟩
    cases hout
    exact ⟨datas, hframes, rfl⟩
  · rintro ⟨datas, hframes, rfl⟩
    exact ⟨datas, hframes, rfl⟩

theorem writeJob_eq {σ : Type} (hp : c.resolve id = .ok p) (write : Sink σ) (s : σ) :
    c.writeJob write program id setup s =
      ((deliver write (p.frames setup program) s).1.map fun _ => p,
        (deliver write (p.frames setup program) s).2) := by
  simp only [writeJob, hp]
  rcases deliver write (p.frames setup program) s with ⟨e | u, t⟩ <;> rfl

theorem render_eq_kept : c.render program id setup = kept (c.writeJob keeping program id setup []) := by
  cases hp : c.resolve id with
  | error e =>
    rw [render_unresolved hp]
    unfold writeJob
    rw [hp]
    rfl
  | ok p =>
    have hkept : kept (c.writeJob keeping program id setup []) =
        kept (deliver keeping (p.frames setup program) []) := by
      rw [writeJob_eq hp]
      rcases deliver keeping (p.frames setup program) [] with ⟨e | u, t⟩ <;> rfl
    rw [hkept, kept_deliver, render_of_resolve hp]
    cases (p.frames setup program).mapM fun f => f <;> rfl

/-! ## Job files -/

variable {w : World} {path : PathName}

theorem renderFile_unread {e : Failure} (h : Job.load w path = .error e) :
    c.renderFile w path id setup = .error e := by
  unfold renderFile
  rw [h]
  rfl

theorem renderFile_read {cs : List Command} (h : Job.load w path = .ok cs) :
    c.renderFile w path id setup = c.render (.program (cs.map .command)) id setup := by
  unfold renderFile
  rw [h]
  rfl

end Catalog

end PenPlotter
