import PenPlotter.Plot.Delivery
/-! # The calls of a delivery

What a delivery does to its sink is a list of calls, each with the bytes that were offered and the
answer. `Offers` and `Delivers` say which calls a block of bytes and a list of frames give rise to and
how they end; `offer` and `deliver` are shown to make such calls and no others, whatever the sink.
-/
namespace PenPlotter
open Text

structure Call where
  data : Bytes
  answer : Except Failure (Option Int)

namespace Call

/-- The bytes that a call took: all of them, as many as its count says, or none. -/
def taken (c : Call) : Bytes :=
  match c.answer with
  | .ok none => c.data
  | .ok (some n) => c.data.take n.toNat
  | .error _ => []

def failure? (c : Call) : Option Failure :=
  match c.answer with
  | .ok none => none
  | .ok (some n) => if n ≤ 0 then some (.stalled c.data.length) else none
  | .error e => some e

/-- A call that took some of its bytes and left others. -/
def Short (c : Call) : Prop := c.failure? = none ∧ c.taken.length < c.data.length

instance (c : Call) : Decidable c.Short := by unfold Short; infer_instance

theorem taken_prefix (c : Call) : c.taken <+: c.data := by
  rcases c with ⟨data, e | n | n⟩
  · exact List.nil_prefix
  · exact List.prefix_refl data
  · exact List.take_prefix n.toNat data

theorem taken_append_rest (c : Call) : c.taken ++ c.data.drop c.taken.length = c.data := by
  obtain ⟨rest, h⟩ := c.taken_prefix
  rw [← h, List.drop_left]

theorem taken_of_failure {c : Call} {e : Failure} (h : c.failure? = some e) : c.taken = [] := by
  rcases c with ⟨data, e' | n | n⟩
  · rfl
  · simp [failure?] at h
  · by_cases hn : n ≤ 0
    · simp [taken, Int.toNat_of_nonpos hn]
    · simp [failure?, hn] at h

theorem taken_ne_nil {c : Call} (h : c.failure? = none) (hd : c.data ≠ []) : c.taken ≠ [] := by
  rcases c with ⟨data, e | n | n⟩
  · simp [failure?] at h
  · exact hd
  · have hn : ¬ n ≤ 0 := by
      intro hn
      simp [failure?, hn] at h
    simp only [taken, ne_eq, List.take_eq_nil_iff, not_or]
    exact ⟨by omega, hd⟩

/-- A call is short where its count is one of the bytes that it was offered, but not of all. -/
theorem short_iff {c : Call} :
    c.Short ↔ ∃ n : Int, c.answer = .ok (some n) ∧ 0 < n ∧ n < c.data.length := by
  rcases c with ⟨data, e | n | n⟩
  · simp [Short, failure?]
  · simp [Short, taken]
  · by_cases hn : n ≤ 0
    · simp [Short, failure?, hn, Int.not_lt.mpr hn]
    · have hcount : min n.toNat data.length < data.length ↔ n < data.length := by omega
      simp [Short, failure?, taken, hn, hcount, Int.not_le.mp hn]

end Call

def takenBy (calls : List Call) : Bytes := calls.flatMap Call.taken

@[simp] theorem takenBy_nil : takenBy [] = [] := rfl

@[simp] theorem takenBy_cons (c : Call) (calls : List Call) :
    takenBy (c :: calls) = c.taken ++ takenBy calls := rfl

@[simp] theorem takenBy_append (calls more : List Call) :
    takenBy (calls ++ more) = takenBy calls ++ takenBy more := List.flatMap_append

/-- The calls for a block of bytes. Each call offers what the calls before it left, and a call that
fails is the last one. -/
inductive Offers : Bytes → List Call → Except Failure Unit → Prop
  | done : Offers [] [] (.ok ())
  | failed {c : Call} {e : Failure} (hd : c.data ≠ []) (he : c.failure? = some e) :
      Offers c.data [c] (.error e)
  | step {c : Call} {calls : List Call} {r : Except Failure Unit} (hd : c.data ≠ [])
      (he : c.failure? = none) (hr : Offers (c.data.drop c.taken.length) calls r) :
      Offers c.data (c :: calls) r

/-- The calls for frames: those for one frame after the other, up to the first that fails or cannot
be rendered. -/
inductive Delivers : List (Except Fault Bytes) → List Call → Except Failure Unit → Prop
  | done : Delivers [] [] (.ok ())
  | unrendered {f : Fault} {rest : List (Except Fault Bytes)} :
      Delivers (.error f :: rest) [] (.error (.fault f))
  | failed {data : Bytes} {rest : List (Except Fault Bytes)} {calls : List Call} {e : Failure}
      (ho : Offers data calls (.error e)) : Delivers (.ok data :: rest) calls (.error e)
  | step {data : Bytes} {rest : List (Except Fault Bytes)} {calls more : List Call}
      {r : Except Failure Unit} (ho : Offers data calls (.ok ())) (hr : Delivers rest more r) :
      Delivers (.ok data :: rest) (calls ++ more) r

inductive Ran {σ : Type} (write : Sink σ) : σ → List Call → σ → Prop
  | done (s : σ) : Ran write s [] s
  | step {s t : σ} {c : Call} {calls : List Call} (hc : (write c.data s).1 = c.answer)
      (hr : Ran write (write c.data s).2 calls t) : Ran write s (c :: calls) t

theorem Ran.append {σ : Type} {write : Sink σ} {s t u : σ} {calls more : List Call}
    (h : Ran write s calls t) (hm : Ran write t more u) : Ran write s (calls ++ more) u := by
  induction h with
  | done => exact hm
  | step hc _ ih => exact .step hc (ih hm)

section
variable {σ : Type} (write : Sink σ)

theorem offer_nil (s : σ) : offer write [] s = (.ok (), s) := by
  rw [offer]
  simp

/-- An offer makes one call and goes on with what the call left, unless the call fails. -/
theorem offer_call {data : Bytes} (hd : data ≠ []) (s : σ) :
    offer write data s =
      match (Call.mk data (write data s).1).failure? with
      | some e => (.error e, (write data s).2)
      | none => offer write (data.drop (Call.mk data (write data s).1).taken.length)
          (write data s).2 := by
  rw [offer]
  simp only [hd, ↓reduceDIte]
  rcases write data s with ⟨e | n | n, t⟩
  · rfl
  · simp [Call.failure?, Call.taken, offer_nil]
  · by_cases hn : n ≤ 0
    · simp [Call.failure?, hn]
    · have hdrop : data.drop (min n.toNat data.length) = data.drop n.toNat := by
        rcases Nat.le_total n.toNat data.length with h | h
        · rw [Nat.min_eq_left h]
        · rw [Nat.min_eq_right h, List.drop_length, List.drop_eq_nil_of_le h]
      simp [Call.failure?, Call.taken, hn, hdrop]

/-- Every offer makes the calls that are due for its bytes. -/
theorem offer_offers (data : Bytes) (s : σ) :
    ∃ calls, Ran write s calls (offer write data s).2 ∧ Offers data calls (offer write data s).1 := by
  -- A call that passes takes a byte at least, so that fewer are left.
  induction hlen : data.length using Nat.strongRecOn generalizing data s with
  | _ k ih =>
    by_cases hd : data = []
    · subst hd
      rw [offer_nil]
      exact ⟨[], .done s, .done⟩
    · let c : Call := ⟨data, (write data s).1⟩
      rw [offer_call write hd]
      cases he : c.failure? with
      | some e => exact ⟨[c], .step rfl (.done _), .failed (c := c) hd he⟩
      | none =>
        have hpos := List.length_pos_iff.mpr (Call.taken_ne_nil (c := c) he hd)
        have hdata := List.length_pos_iff.mpr hd
        obtain ⟨calls, hran, hoff⟩ := ih _ (by rw [List.length_drop]; omega)
          (data.drop c.taken.length) (write data s).2 rfl
        exact ⟨c :: calls, .step rfl hran, .step (c := c) hd he hoff⟩

/-- Every delivery makes the calls that are due for its frames. -/
theorem deliver_delivers (frames : List (Except Fault Bytes)) (s : σ) :
    ∃ calls, Ran write s calls (deliver write frames s).2 ∧
      Delivers frames calls (deliver write frames s).1 := by
  induction frames generalizing s with
  | nil => exact ⟨[], .done s, .done⟩
  | cons frame rest ih =>
    cases frame with
    | error f => exact ⟨[], .done s, .unrendered⟩
    | ok data =>
      obtain ⟨calls, hran, hoff⟩ := offer_offers write data s
      rw [deliver]
      generalize offer write data s = outcome at hran hoff ⊢
      rcases outcome with ⟨e | u, t⟩
      · exact ⟨calls, hran, .failed hoff⟩
      · obtain ⟨more, hmore, hrest⟩ := ih t
        exact ⟨calls ++ more, hran.append hmore, .step hoff hrest⟩

end

end PenPlotter
