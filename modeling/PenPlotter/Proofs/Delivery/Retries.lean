import PenPlotter.Proofs.Delivery.Recording
import PenPlotter.Proofs.Plot.Framing
/-! # The order of the calls of a delivery

A frame is offered whole. What a short call left of it is offered next, and so on until a call takes all
or fails. So no call offers bytes of two frames or none at all, and since each call offers fewer bytes than
the one before it, a frame takes at most as many calls as it has bytes.
-/
namespace PenPlotter
open Text

namespace Call
variable {c d : Call}

/-- The sink took all that it was offered: it said so, or its count is that high. -/
def Complete (c : Call) : Prop :=
  c.answer = .ok none ∨ ∃ n : ℤ, c.answer = .ok (some n) ∧ c.data.length ≤ n

/-- The sink took the first `n` bytes, and the next call offers the others. -/
def LeadsTo (c d : Call) : Prop :=
  ∃ n : ℤ, c.answer = .ok (some n) ∧ 0 < n ∧ n < c.data.length ∧ d.data = c.data.drop n.toNat

theorem LeadsTo.not_complete (h : c.LeadsTo d) : ¬ c.Complete := by
  obtain ⟨n, hn, -, hshort, -⟩ := h
  rintro (hall | ⟨k, hk, hle⟩)
  · cases hn.symm.trans hall
  · cases hn.symm.trans hk
    omega

theorem LeadsTo.suffix (h : c.LeadsTo d) : d.data <:+ c.data := by
  obtain ⟨n, -, -, -, hdrop⟩ := h
  rw [hdrop]
  exact List.drop_suffix n.toNat c.data

theorem LeadsTo.length_lt (h : c.LeadsTo d) : d.data.length < c.data.length := by
  obtain ⟨n, -, hpos, hshort, hdrop⟩ := h
  rw [hdrop, List.length_drop]
  omega

theorem LeadsTo.ne_nil (h : c.LeadsTo d) : d.data ≠ [] := by
  obtain ⟨n, -, hpos, hshort, hdrop⟩ := h
  rw [hdrop, Ne, List.drop_eq_nil_iff]
  omega

/-- A call that passes takes all or leaves something to the next one. -/
theorem complete_of_not_short (h : c.failure? = none) (hshort : ¬ c.Short) : c.Complete := by
  rcases c with ⟨data, e | n | n⟩
  · cases h
  · exact .inl rfl
  · have hpos : 0 < n := by
      by_contra hn
      simp [failure?, Int.not_lt.mp hn] at h
    refine .inr ⟨n, rfl, ?_⟩
    by_contra hlt
    exact hshort (short_iff.mpr ⟨n, rfl, hpos, Int.not_le.mp hlt⟩)

end Call

/-! ## One frame -/

/-- Calls for a block of bytes: the first offers all of it, and each further one what the call before it
left. -/
structure Retries (data : Bytes) (calls : List Call) : Prop where
  first : calls.head?.map Call.data = some data
  chain : calls.IsChain Call.LeadsTo

def Closes (calls : List Call) : Except Failure Unit → Prop
  | .ok () => ∃ c, calls.getLast? = some c ∧ c.Complete
  | .error e => ∃ c, calls.getLast? = some c ∧ c.failure? = some e

namespace Retries
variable {data : Bytes} {c : Call} {calls : List Call}

theorem single (c : Call) : Retries c.data [c] := ⟨rfl, List.isChain_singleton c⟩

theorem cons {d : Call} (hc : c.LeadsTo d) (h : Retries d.data (d :: calls)) :
    Retries c.data (c :: d :: calls) :=
  ⟨rfl, List.isChain_cons_cons.mpr ⟨hc, h.chain⟩⟩

theorem exists_cons (h : Retries data calls) : ∃ c rest, calls = c :: rest ∧ c.data = data := by
  have hfirst := h.first
  cases calls with
  | nil => cases hfirst
  | cons c rest => exact ⟨c, rest, rfl, Option.some.inj hfirst⟩

/-- A block that is taken at once takes one call. -/
theorem eq_single (h : Retries data (c :: calls)) (hc : c.Complete) : calls = [] := by
  cases calls with
  | nil => rfl
  | cons d rest => exact absurd hc (List.isChain_cons_cons.mp h.chain).1.not_complete

theorem offers (h : Retries data calls) (hd : data ≠ []) : ∀ c ∈ calls, c.data ≠ [] ∧ c.data <:+ data := by
  obtain ⟨c, rest, rfl, rfl⟩ := h.exists_cons
  induction rest generalizing c with
  | nil => exact List.forall_mem_singleton.mpr ⟨hd, List.suffix_rfl⟩
  | cons d rest ih =>
    obtain ⟨hlead, hchain⟩ := List.isChain_cons_cons.mp h.chain
    refine List.forall_mem_cons.mpr ⟨⟨hd, List.suffix_rfl⟩, fun x hx => ?_⟩
    obtain ⟨hne, hsuffix⟩ := ih d hlead.ne_nil ⟨rfl, hchain⟩ x hx
    exact ⟨hne, hsuffix.trans hlead.suffix⟩

/-- Each call offers fewer bytes than the one before it, and the last one still offers some. -/
theorem length_le (h : Retries data calls) (hd : data ≠ []) : calls.length ≤ data.length := by
  obtain ⟨c, rest, rfl, rfl⟩ := h.exists_cons
  induction rest generalizing c with
  | nil => exact List.length_pos_iff.mpr hd
  | cons d rest ih =>
    obtain ⟨hlead, hchain⟩ := List.isChain_cons_cons.mp h.chain
    have hrest := ih d hlead.ne_nil ⟨rfl, hchain⟩
    have hless := hlead.length_lt
    rw [List.length_cons]
    omega

end Retries

theorem Offers.ok_of_nil {data : Bytes} {calls : List Call} {r : Except Failure Unit}
    (h : Offers data calls r) (hd : data = []) : r = .ok () := by
  cases h with
  | done => rfl
  | failed hne => exact absurd hd hne
  | step hne => exact absurd hd hne

/-- The calls for a block of bytes retry what short calls left, and end as the offer does. -/
theorem Offers.retries {data : Bytes} {calls : List Call} {r : Except Failure Unit}
    (h : Offers data calls r) (hd : data ≠ []) : Retries data calls ∧ Closes calls r := by
  induction h with
  | done => exact absurd rfl hd
  | @failed c e _ he => exact ⟨.single c, c, rfl, he⟩
  | @step c calls r _ he htail ih =>
    by_cases hshort : c.Short
    · obtain ⟨n, hn, hpos, hlt⟩ := Call.short_iff.mp hshort
      have htaken : c.data.drop c.taken.length = c.data.drop n.toNat := by
        rw [Call.taken, hn, List.length_take, Nat.min_eq_left (by omega)]
      have hrest : c.data.drop c.taken.length ≠ [] := by
        rw [htaken, Ne, List.drop_eq_nil_iff]
        omega
      obtain ⟨hretries, hcloses⟩ := ih hrest
      obtain ⟨d, rest, rfl, hdata⟩ := hretries.exists_cons
      rw [← hdata] at hretries
      refine ⟨hretries.cons ⟨n, hn, hpos, hlt, hdata.trans htaken⟩, ?_⟩
      rcases r with e | u
      · exact hcloses
      · exact hcloses
    · have hall : c.data.drop c.taken.length = [] := by
        rw [List.drop_eq_nil_iff]
        by_contra hlt
        exact hshort ⟨he, by omega⟩
      obtain rfl := htail.eq_nil hall
      obtain rfl := htail.ok_of_nil hall
      exact ⟨.single c, c, rfl, c.complete_of_not_short he hshort⟩

/-! ## Frame after frame -/

/-- How a delivery ends whose frames, as far as they were offered, took the calls of `blocks`: all are
taken, and what is behind them is nothing or a frame that cannot be rendered; or the last one fails. -/
inductive Ending : List (List Call) → List (Except Fault Bytes) → Except Failure Unit → Prop
  | taken {blocks : List (List Call)} (h : ∀ calls ∈ blocks, Closes calls (.ok ())) :
      Ending blocks [] (.ok ())
  | unrendered {blocks : List (List Call)} {f : Fault} {rest : List (Except Fault Bytes)}
      (h : ∀ calls ∈ blocks, Closes calls (.ok ())) :
      Ending blocks (.error f :: rest) (.error (.fault f))
  | failed {blocks : List (List Call)} {calls : List Call} {rest : List (Except Fault Bytes)}
      {e : Failure} (h : ∀ calls ∈ blocks, Closes calls (.ok ())) (he : Closes calls (.error e)) :
      Ending (blocks ++ [calls]) rest (.error e)

theorem Ending.cons {blocks : List (List Call)} {rest : List (Except Fault Bytes)}
    {r : Except Failure Unit} {calls : List Call} (hc : Closes calls (.ok ()))
    (h : Ending blocks rest r) : Ending (calls :: blocks) rest r := by
  cases h with
  | taken h => exact .taken (List.forall_mem_cons.mpr ⟨hc, h⟩)
  | unrendered h => exact .unrendered (List.forall_mem_cons.mpr ⟨hc, h⟩)
  | failed h he =>
    rw [← List.cons_append]
    exact .failed (List.forall_mem_cons.mpr ⟨hc, h⟩) he

/-- The calls of a delivery are those for its first frames, each for itself. -/
theorem Delivers.blocks {frames : List (Except Fault Bytes)} {calls : List Call}
    {r : Except Failure Unit} (h : Delivers frames calls r)
    (hne : ∀ data, .ok data ∈ frames → data ≠ []) :
    ∃ (blocks : List (Bytes × List Call)) (rest : List (Except Fault Bytes)),
      frames = blocks.map (fun b => .ok b.1) ++ rest ∧ calls = blocks.flatMap Prod.snd ∧
      (∀ b ∈ blocks, b.1 ≠ [] ∧ Retries b.1 b.2) ∧ Ending (blocks.map Prod.snd) rest r := by
  induction h with
  | done => exact ⟨[], [], rfl, rfl, nofun, .taken nofun⟩
  | @unrendered f rest => exact ⟨[], .error f :: rest, rfl, rfl, nofun, .unrendered nofun⟩
  | @failed data rest calls e ho =>
    have hd := hne data List.mem_cons_self
    obtain ⟨hretries, hcloses⟩ := ho.retries hd
    have hending : Ending ([] ++ [calls]) rest (.error e) := .failed nofun hcloses
    exact ⟨[(data, calls)], rest, rfl, by simp, List.forall_mem_singleton.mpr ⟨hd, hretries⟩, hending⟩
  | @step data rest calls more r ho _ ih =>
    have hd := hne data List.mem_cons_self
    obtain ⟨hretries, hcloses⟩ := ho.retries hd
    obtain ⟨blocks, behind, rfl, rfl, hblocks, hending⟩ :=
      ih fun d hmem => hne d (List.mem_cons_of_mem _ hmem)
    exact ⟨(data, calls) :: blocks, behind, rfl, rfl,
      List.forall_mem_cons.mpr ⟨⟨hd, hretries⟩, hblocks⟩, hending.cons hcloses⟩

/-- Frames behind others are delivered once those are. -/
theorem deliver_append {σ : Type} (write : Sink σ) (frames rest : List (Except Fault Bytes)) (s : σ) :
    deliver write (frames ++ rest) s = match deliver write frames s with
      | (.error e, t) => (.error e, t)
      | (.ok (), t) => deliver write rest t := by
  induction frames generalizing s with
  | nil => rfl
  | cons frame frames ih =>
    cases frame with
    | error f => rfl
    | ok data =>
      rw [List.cons_append, deliver, deliver]
      rcases offer write data s with ⟨e | u, t⟩
      · rfl
      · exact ih t

namespace Item
variable {σ : Type}

/-- A set-up and a program behind it are offered frame by frame. The first call for a frame offers all of
it, each further one what the call before it left, and the last one of a frame with others behind it takes
all. So no call offers nothing or more than one frame, a frame that is taken at once takes one call, and
none takes more calls than it has bytes. -/
theorem deliver_retries (write : Sink σ) (setup program : Item) (s : σ) :
    let frames := setup.instructionFrames ++ program.commandFrames
    let run := deliver (recording write) frames { inner := s }
    (run.1, run.2.inner) = (match deliver write setup.instructionFrames s with
      | (.error e, t) => (.error e, t)
      | (.ok (), t) => deliver write program.commandFrames t) ∧
    ∃ (blocks : List (Bytes × List Call)) (rest : List (Except Fault Bytes)),
      frames = blocks.map (fun b => .ok b.1) ++ rest ∧
      run.2.calls = blocks.flatMap Prod.snd ∧
      Ending (blocks.map Prod.snd) rest run.1 ∧
      ∀ b ∈ blocks, Retries b.1 b.2 ∧ (∀ c ∈ b.2, c.data ≠ [] ∧ c.data <:+ b.1) ∧
        (∀ c, b.2.head? = some c → c.Complete → b.2 = [c]) ∧ b.2.length ≤ b.1.length := by
  intro frames run
  have hne : ∀ data, .ok data ∈ frames → data ≠ [] := by
    intro data hdata
    rcases List.mem_append.mp hdata with h | h
    · obtain ⟨item, hitem⟩ := mem_framesOf h
      exact instructionFrame_ne_nil hitem
    · obtain ⟨item, hitem⟩ := mem_framesOf h
      exact commandFrame_ne_nil hitem
  refine ⟨?_, ?_⟩
  · rw [← deliver_append]
    exact (deliver_projects (recording_projects write) frames { inner := s }).symm
  obtain ⟨calls, hran, hdelivers⟩ := deliver_delivers (recording write) frames { inner := s }
  have hcalls : run.2.calls = calls := hran.recorded
  obtain ⟨blocks, rest, hframes, hblocks, hretries, hending⟩ := hdelivers.blocks hne
  refine ⟨blocks, rest, hframes, hcalls.trans hblocks, hending, fun b hb => ?_⟩
  obtain ⟨hd, h⟩ := hretries b hb
  refine ⟨h, h.offers hd, fun c hc hcomplete => ?_, h.length_le hd⟩
  obtain ⟨d, more, hmore, -⟩ := h.exists_cons
  rw [hmore] at h hc ⊢
  cases hc
  rw [h.eq_single hcomplete]

end Item

end PenPlotter
