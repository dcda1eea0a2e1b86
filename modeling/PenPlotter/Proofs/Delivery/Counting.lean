import PenPlotter.Proofs.Delivery.Recording
import PenPlotter.Service.Send
/-! # What a counting sink counts

A counting sink counts calls and the bytes that they were offered. In a delivery that ends well these
are the frames and their bytes, with one call more for each short call and the bytes that it left.
-/
namespace PenPlotter
open Text

/-- Calls lead the larger sink where they lead the one in view. -/
theorem Ran.projects {σ τ : Type} {view : τ → σ} {outer : Sink τ} {inner : Sink σ}
    (hview : Projects view outer inner) {s t : τ} {calls : List Call} (h : Ran outer s calls t) :
    Ran inner (view s) calls (view t) := by
  induction h with
  | done s => exact .done _
  | @step s t c calls hc _ ih =>
    refine .step ?_ ?_
    · rw [hview]
      exact hc
    · rw [hview]
      exact ih

theorem counting_projects {σ : Type} (write : Sink σ) :
    Projects Counted.inner (counting write) write := by
  intro data t
  simp only [counting]
  rcases write data t.inner with ⟨e | n, inner⟩ <;> rfl

theorem Call.exists_answer {c : Call} (h : c.failure? = none) : ∃ n, c.answer = .ok n := by
  rcases c with ⟨data, e | n⟩
  · cases h
  · exact ⟨n, rfl⟩

/-- A write that does not fail is counted with the bytes that it was offered. -/
theorem counting_step {σ : Type} {write : Sink σ} {data : Bytes} {s : Counted σ} {n : Option Int}
    (h : (counting write data s).1 = .ok n) :
    (counting write data s).2.frames = s.frames + 1 ∧
      (counting write data s).2.bytes = s.bytes + data.length := by
  simp only [counting] at h ⊢
  generalize write data s.inner = answer at h ⊢
  rcases answer with ⟨e | n, inner⟩
  · cases h
  · exact ⟨rfl, rfl⟩

theorem Ran.counted {σ : Type} {write : Sink σ} {s t : Counted σ} {calls : List Call}
    (h : Ran (counting write) s calls t) (hok : ∀ c ∈ calls, c.failure? = none) :
    t.frames = s.frames + calls.length ∧ t.bytes = s.bytes + offeredBy calls := by
  induction h with
  | done s => exact ⟨rfl, rfl⟩
  | @step s t c calls hc _ ih =>
    obtain ⟨hcok, hcalls⟩ := List.forall_mem_cons.mp hok
    obtain ⟨hframes, hbytes⟩ := ih hcalls
    obtain ⟨n, hn⟩ := Call.exists_answer hcok
    have hstep := counting_step (hc.trans hn)
    rw [hframes, hbytes, hstep.1, hstep.2]
    simp only [offeredBy, List.length_cons]
    omega

/-- Only frames that are all rendered are delivered to the end. -/
theorem Delivers.rendered {frames : List (Except Fault Bytes)} {calls : List Call}
    {r : Except Failure Unit} (h : Delivers frames calls r) (hr : r = .ok ()) :
    ∃ datas : List Bytes, frames = datas.map .ok := by
  induction h with
  | done => exact ⟨[], rfl⟩
  | unrendered => cases hr
  | failed _ => cases hr
  | @step data rest calls more r _ _ ih =>
    obtain ⟨datas, rfl⟩ := ih hr
    exact ⟨data :: datas, rfl⟩

theorem deliver_counted {σ : Type} {write : Sink σ} {frames : List (Except Fault Bytes)} {s : σ}
    {t : Counted σ} (h : deliver (counting write) frames { inner := s } = (.ok (), t))
    (hne : ∀ data, .ok data ∈ frames → data ≠ []) :
    ∃ (datas : List Bytes) (calls : List Call), frames = datas.map .ok ∧
      Ran write s calls t.inner ∧ takenBy calls = datas.flatten ∧
      (∀ c ∈ calls, c.failure? = none) ∧
      t.frames = frames.length + shortCalls calls ∧
      t.bytes = datas.flatten.length + leftBy calls := by
  obtain ⟨calls, hran, hdelivers⟩ := deliver_delivers (counting write) frames { inner := s }
  rw [h] at hran hdelivers
  obtain ⟨datas, rfl⟩ := hdelivers.rendered rfl
  obtain ⟨hok, htaken⟩ := hdelivers.settles
  obtain ⟨hframes, hbytes⟩ := hran.counted hok
  have hlength := hdelivers.length fun data hdata => hne data (List.mem_map_of_mem hdata)
  refine ⟨datas, calls, rfl, hran.projects (counting_projects write), htaken, hok, ?_, ?_⟩
  · rw [hframes, hlength, List.length_map, Nat.zero_add]
  · rw [hbytes, offeredBy_eq, htaken, Nat.zero_add]

end PenPlotter
