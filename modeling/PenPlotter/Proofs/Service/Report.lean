import PenPlotter.Proofs.Service.Sent
/-! # How far a report is off

A report counts too much where writes were short, and never too little. Each short write is one frame too
many, and the bytes that it left are bytes too many.
-/
namespace PenPlotter
open Text

def Call.left? (c : Call) : Option ℕ :=
  match c.answer with
  | .ok (some n) => if 0 < n ∧ n < c.data.length then some (c.data.length - n.toNat) else none
  | _ => none

/-- What the short calls among some calls left, one after the other. -/
def leftovers (calls : List Call) : List ℕ := calls.filterMap Call.left?

section
variable {c : Call} {calls : List Call} {k : ℕ}

theorem Call.left?_eq_some :
    c.left? = some k ↔ c.Short ∧ k = c.data.length - c.taken.length := by
  rcases c with ⟨data, e | n | n⟩
  · simp [left?, short_iff]
  · simp [left?, short_iff]
  · by_cases hn : 0 < n ∧ n < data.length
    · have htaken : min n.toNat data.length = n.toNat := Nat.min_eq_left (by omega)
      simp [left?, short_iff, taken, hn, htaken, eq_comm]
    · simp [left?, short_iff, hn]

theorem Call.left?_eq_none : c.left? = none ↔ ¬ c.Short := by
  rw [Option.eq_none_iff_forall_ne_some]
  constructor
  · exact fun h hshort => h _ (left?_eq_some.mpr ⟨hshort, rfl⟩)
  · exact fun h k hk => h (left?_eq_some.mp hk).1

theorem leftovers_eq_nil : leftovers calls = [] ↔ ∀ call ∈ calls, ¬ call.Short := by
  simp only [leftovers, List.filterMap_eq_nil_iff, Call.left?_eq_none]

theorem leftovers_length (calls : List Call) : (leftovers calls).length = shortCalls calls := by
  induction calls with
  | nil => rfl
  | cons c calls ih =>
    rw [leftovers, shortCalls, List.countP_cons] at *
    cases hc : c.left? with
    | none => simp [hc, Call.left?_eq_none.mp hc, ih]
    | some k => simp [hc, (Call.left?_eq_some.mp hc).1, ih]

/-- Calls that pass leave something only where they are short. -/
theorem leftovers_sum (h : ∀ call ∈ calls, call.failure? = none) :
    (leftovers calls).sum = leftBy calls := by
  induction calls with
  | nil => rfl
  | cons c calls ih =>
    obtain ⟨hc, hcalls⟩ := List.forall_mem_cons.mp h
    have hrest := ih hcalls
    rw [leftovers] at hrest ⊢
    rw [leftBy]
    cases hleft : c.left? with
    | none =>
      have hwhole : c.data.length - c.taken.length = 0 := by
        by_contra hsome
        exact Call.left?_eq_none.mp hleft ⟨hc, by omega⟩
      rw [List.filterMap_cons_none hleft, hrest, hwhole, Nat.zero_add]
    | some k =>
      rw [List.filterMap_cons_some hleft, List.sum_cons, hrest, (Call.left?_eq_some.mp hleft).2]

end

namespace Catalog
variable {c : Catalog} {t : Transport} {program : Item} {id : Option String} {setup : Bool}
  {l l' : Line} {sent : Sent}

/-- The report of a program that was sent counts a frame for each instruction of the set-up, each command
and each short write, and the bytes of the rendering with those that short writes left. So neither count
is too low, and either is the true one just where no write was short. -/
theorem send_report_eq (h : c.send t program id setup l = (.ok sent, l')) :
    ∃ p size out seen, c.resolve id = .ok p ∧ program.size = .ok size ∧
      c.render program id setup = .ok out ∧ l'.calls = l.calls ++ seen ∧
      sent.frames = p.setupCount setup + size + (leftovers seen).length ∧
      sent.bytes = out.length + (leftovers seen).sum ∧
      p.setupCount setup + size ≤ sent.frames ∧ out.length ≤ sent.bytes ∧
      (sent.frames = p.setupCount setup + size ↔ leftovers seen = []) ∧
      (sent.bytes = out.length ↔ leftovers seen = []) := by
  obtain ⟨p, size, out, seen, hp, hsize, hout, hseen, -, hpass, -, hframes, hbytes⟩ := send_counts h
  have hframesNone : shortCalls seen = 0 ↔ leftovers seen = [] := by
    rw [leftovers_eq_nil, shortCalls_eq_zero]
  have hbytesNone : leftBy seen = 0 ↔ leftovers seen = [] := by
    rw [leftovers_eq_nil, leftBy_eq_zero hpass]
  refine ⟨p, size, out, seen, hp, hsize, hout, hseen, ?_, ?_, by omega, by omega, ?_, ?_⟩
  · rw [hframes, leftovers_length]
  · rw [hbytes, leftovers_sum hpass]
  · rw [← hframesNone, hframes]
    omega
  · rw [← hbytesNone, hbytes]
    omega

/-- A line that takes a byte, and then another one, of a frame of three bytes. -/
theorem send_report_eq_byByte :
    let program : Item := .program [.command .defaults]
    let run := single.send (.plain [.count 1, .count 1]) program (some "single") false { port := "line" }
    leftovers run.2.calls = [2, 1] ∧ ∃ sent size out, run.1 = .ok sent ∧ program.size = .ok size ∧
      single.render program (some "single") false = .ok out ∧ sent.frames = size + 2 ∧
      sent.bytes = out.length + 3 := by
  intro program run
  have hleft : leftovers run.2.calls = [2, 1] := by decide +kernel
  obtain ⟨sent, l', h⟩ := exists_ok (r := run) (by decide +kernel)
  obtain ⟨p, size, out, seen, -, hsize, hout, hseen, hframes, hbytes, -⟩ := send_report_eq h
  have hcalls : run.2.calls = seen := by
    rw [h]
    exact hseen
  rw [← hcalls, hleft] at hframes hbytes
  refine ⟨hleft, sent, size, out, congrArg Prod.fst h, hsize, hout, ?_, hbytes⟩
  rw [hframes, Profile.setupCount]
  simp

end Catalog

end PenPlotter
