import PenPlotter.Plot.Item
import PenPlotter.Proofs.Delivery.Recording
import PenPlotter.Proofs.Result
/-! # Programs with a command that cannot be rendered

A command is rendered whole before a byte of it is offered. So a sink that takes something of every
write gets the commands in front of the first one that cannot be rendered, each of them whole, and
nothing else; the fault of that one is what ends the writing.
-/
namespace PenPlotter
open Text

variable {σ : Type}

/-- A sink that raises no error and takes something of every write. A write always offers a byte. -/
def Taking (write : Sink σ) : Prop :=
  ∀ data s, data ≠ [] →
    (write data s).1 = .ok none ∨ ∃ n : Int, 0 < n ∧ (write data s).1 = .ok (some n)

theorem Taking.passes {write : Sink σ} (h : Taking write) {data : Bytes} (hd : data ≠ []) (s : σ) :
    (Call.mk data (write data s).1).failure? = none := by
  rcases h data s hd with hall | ⟨n, hn, hsome⟩
  · simp [Call.failure?, hall]
  · simp [Call.failure?, hsome, Int.not_le.mpr hn]

/-- Each block of bytes is taken whole. -/
theorem Taking.offer_ok {write : Sink σ} (h : Taking write) (data : Bytes) (s : σ) :
    ∃ t, offer write data s = (.ok (), t) := by
  -- A call that passes takes a byte at least, so that fewer are left.
  induction hlen : data.length using Nat.strongRecOn generalizing data s with
  | _ k ih =>
    by_cases hd : data = []
    · exact ⟨s, by rw [hd, offer_nil]⟩
    · have hpass := h.passes hd s
      have htaken := List.length_pos_iff.mpr (Call.taken_ne_nil hpass hd)
      have hdata := List.length_pos_iff.mpr hd
      rw [offer_call write hd, hpass]
      exact ih _ (by rw [List.length_drop]; omega) _ _ rfl

/-- A delivery to such a sink ends as the first frame that is not rendered says. -/
theorem Taking.deliver_ok {write : Sink σ} (h : Taking write) (datas : List Bytes) (s : σ) :
    ∃ t, deliver write (datas.map .ok) s = (.ok (), t) ∧
      ∀ f rest, deliver write (datas.map .ok ++ .error f :: rest) s = (.error (.fault f), t) := by
  induction datas generalizing s with
  | nil => exact ⟨s, rfl, fun _ _ => rfl⟩
  | cons data datas ih =>
    obtain ⟨u, hu⟩ := h.offer_ok data s
    obtain ⟨t, ht, hfault⟩ := ih u
    refine ⟨t, ?_, fun f rest => ?_⟩
    · rw [List.map_cons, deliver, hu]
      exact ht
    · rw [List.map_cons, List.cons_append, deliver, hu]
      exact hfault f rest

theorem Taking.recorded {write : Sink σ} (h : Taking write) : Taking (recording write) :=
  fun data s hd => h data s.inner hd

/-- The calls of a delivery that ends well take all its bytes. -/
theorem takenBy_of_deliver {write : Sink σ} {datas : List Bytes} {s : σ} {t : Recorded σ}
    (h : deliver (recording write) (datas.map .ok) { inner := s } = (.ok (), t)) :
    takenBy t.calls = datas.flatten := by
  obtain ⟨calls, hran, hdelivers⟩ :=
    deliver_delivers (recording write) (datas.map .ok) { inner := s }
  rw [h] at hran hdelivers
  rw [hran.recorded, List.nil_append]
  exact hdelivers.settles.2

namespace Item

theorem commandFrames_of_walk {program : Item} {items : List Item} (h : program.walk = .ok items) :
    program.commandFrames = items.map commandFrame := by
  rw [commandFrames, framesOf, h]

/-- The first item of a program that cannot be rendered ends the writing with its fault, and encoding
with the same one. What has happened at the sink by then is what writing the items in front of it does:
all their bytes are taken, and no other byte has been offered. -/
theorem deliver_unrendered {write : Sink σ} (hw : Taking write) {program x : Item}
    {before after : List Item} {f : Fault} (hwalk : program.walk = .ok (before ++ x :: after))
    (hbefore : ∀ y ∈ before, ∃ data, y.commandFrame = .ok data) (hx : x.commandFrame = .error f)
    (s : σ) :
    ∃ out t, (Item.program before).encode = .ok out ∧
      deliver (recording write) (Item.program before).commandFrames { inner := s } = (.ok (), t) ∧
      deliver (recording write) program.commandFrames { inner := s } = (.error (.fault f), t) ∧
      takenBy t.calls = out ∧
      deliver write program.commandFrames s = (.error (.fault f), t.inner) ∧
      (Item.program (before ++ x :: after)).encode = .error f := by
  obtain ⟨datas, hdatas⟩ : ∃ datas : List Bytes, before.map commandFrame = datas.map .ok :=
    exists_map_ok.mp (by simpa using hbefore)
  obtain ⟨t, ht, hfault⟩ := hw.recorded.deliver_ok datas { inner := s }
  have hframes : program.commandFrames =
      datas.map .ok ++ .error f :: after.map commandFrame := by
    rw [commandFrames_of_walk hwalk, List.map_append, hdatas, List.map_cons, hx]
  have hencode : (Item.program before).encode = .ok datas.flatten :=
    bind_eq_ok.mpr ⟨datas, mapM_eq_ok.mpr hdatas, rfl⟩
  have hfails : (Item.program (before ++ x :: after)).encode = .error f :=
    bind_eq_error.mpr (.inl (mapM_eq_error hbefore hx))
  refine ⟨datas.flatten, t, hencode, ?_, ?_, takenBy_of_deliver ht, ?_, hfails⟩
  · rw [commandFrames_of_walk rfl, hdatas, ht]
  · rw [hframes, hfault]
  · have hview := deliver_projects (recording_projects write) program.commandFrames { inner := s }
    rw [hframes, hfault] at hview
    rw [hframes]
    exact hview

/-- A plot whose last coordinate is no number, between two other commands, and a sink that takes a byte
at a time. -/
theorem deliver_unrendered_lastCoordinate :
    let write : Sink Unit := fun _ u => (.ok (some 1), u)
    let plot : Item :=
      .command (.plot [⟨.int 0, .int 0⟩, ⟨.int 420, .double (.nan 0)⟩])
    let program : Item := .program [.command .penDown, plot, .command .penUp]
    let f : Fault := .notFinite ['n', 'a', 'n']
    Taking write ∧ plot.commandFrame = .error f ∧
      ∃ t, deliver (recording write) program.commandFrames { inner := () } = (.error (.fault f), t) ∧
        takenBy t.calls = [80, 68, 59] ∧ program.encode = .error f := by
  intro write plot program f
  have hw : Taking write := fun _ _ _ => .inr ⟨1, by decide, rfl⟩
  have hplot : plot.commandFrame = .error f := error?_eq_some (by decide +kernel)
  have hwalk : program.walk = .ok ([.command .penDown] ++ plot :: [.command .penUp]) := rfl
  have hbefore : ∀ y ∈ [Item.command .penDown], ∃ data, y.commandFrame = .ok data :=
    List.forall_mem_singleton.mpr ⟨_, rfl⟩
  obtain ⟨out, t, hout, -, hdeliver, htaken, -, hencode⟩ :=
    deliver_unrendered hw hwalk hbefore hplot ()
  cases hout
  exact ⟨hw, hplot, t, hdeliver, htaken, hencode⟩

end Item

end PenPlotter
