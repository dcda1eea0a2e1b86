import Mathlib.Data.List.Perm.Basic
import Mathlib.Data.Set.List
import PenPlotter.Proofs.Text.Order
import PenPlotter.Schema.Unique
/-! # Lists without equal texts

Where items have a total order, sorting gives all of them in that order: a run at the start is in order as
it is or in reverse, and halving finds the place of each further item. So comparing neighbours finds any
two equal ones, and a list of texts counts as one without equal items just where it is.
-/
namespace PenPlotter.Value
open Text

/-- Values of a sort have a total order, and come before each other by it. -/
structure Sorts (before : Value → Value → Except Clash Bool) (P : Value → Prop)
    (le : Value → Value → Bool) : Prop where
  before : ∀ a b, P a → P b → before a b = .ok (!le b a)
  total : ∀ a b, P a → P b → le a b = true ∨ le b a = true
  trans : ∀ a b c, le a b = true → le b c = true → le a c = true

variable {before : Value → Value → Except Clash Bool} {P : Value → Prop}
  {le : Value → Value → Bool} {x : Value} {xs ys zs : List Value}

theorem place_step {low size : Nat} {m : Value} {b : Bool} (hsize : size ≠ 0)
    (hm : ys[low + size / 2]? = some m) (hb : before x m = .ok b) :
    place before x ys low size = if b then place before x ys low (size / 2)
      else place before x ys (low + size / 2 + 1) (size - size / 2 - 1) := by
  rw [place, dif_neg hsize, hm]
  dsimp only
  rw [hb]
  rfl

/-- Halving finds a place behind values that are not greater and before values that are not less. -/
theorem place_spec (h : Sorts before P le) (hx : P x) (hys : ∀ y ∈ ys, P y)
    (hsorted : ys.Pairwise fun a b => le a b = true) {low size : Nat}
    (hsize : low + size ≤ ys.length) (hbelow : ∀ y ∈ ys.take low, le y x = true)
    (habove : ∀ y ∈ ys.drop (low + size), le x y = true) :
    ∃ k, place before x ys low size = .ok k ∧ k ≤ ys.length ∧
      (∀ y ∈ ys.take k, le y x = true) ∧ ∀ y ∈ ys.drop k, le x y = true := by
  -- both halves are smaller, and each keeps what is known of the values outside of it
  induction size using Nat.strongRecOn generalizing low with
  | ind size ih =>
    by_cases hzero : size = 0
    · subst hzero
      exact ⟨low, by rw [place, dif_pos rfl], hsize, hbelow, habove⟩
    · have hmiddle : low + size / 2 < ys.length := by omega
      obtain ⟨m, hm⟩ : ∃ m, ys[low + size / 2]? = some m :=
        ⟨_, List.getElem?_eq_getElem hmiddle⟩
      have hmem : m ∈ ys := List.mem_of_getElem? hm
      have htake : ys.take (low + size / 2 + 1) = ys.take (low + size / 2) ++ [m] := by
        rw [List.take_add_one, hm, Option.toList_some]
      have hdrop : ys.drop (low + size / 2) = m :: ys.drop (low + size / 2 + 1) := by
        rw [List.drop_eq_getElem_cons hmiddle, (List.getElem?_eq_some_iff.mp hm).2]
      rw [← List.take_append_drop (low + size / 2) ys, hdrop, List.pairwise_append,
        List.pairwise_cons] at hsorted
      obtain ⟨-, ⟨hafter, -⟩, hacross⟩ := hsorted
      rw [place_step hzero hm (h.before x m hx (hys m hmem))]
      cases hle : le m x with
      | true =>
        refine ih (size - size / 2 - 1) (by omega) (by omega) (fun y hy => ?_) ?_
        · rw [htake] at hy
          rcases List.mem_append.mp hy with hy | hy
          · exact h.trans y m x (hacross y hy m List.mem_cons_self) hle
          · rw [List.mem_singleton.mp hy]
            exact hle
        · rwa [show low + size / 2 + 1 + (size - size / 2 - 1) = low + size by omega]
      | false =>
        refine ih (size / 2) (by omega) (by omega) hbelow fun y hy => ?_
        have hxm := (h.total x m hx (hys m hmem)).resolve_right (by simp [hle])
        rw [hdrop] at hy
        rcases List.mem_cons.mp hy with rfl | hy
        · exact hxm
        · exact h.trans x m y hxm (hafter y hy)

theorem insertIdx_pairwise {R : Value → Value → Prop} {k : Nat} (hk : k ≤ ys.length)
    (hys : ys.Pairwise R) (hbelow : ∀ y ∈ ys.take k, R y x) (habove : ∀ y ∈ ys.drop k, R x y) :
    (ys.insertIdx k x).Pairwise R := by
  induction ys generalizing k with
  | nil =>
    obtain rfl : k = 0 := Nat.le_zero.mp hk
    exact List.pairwise_singleton R x
  | cons y ys ih =>
    cases k with
    | zero =>
      rw [List.insertIdx_zero]
      exact List.pairwise_cons.mpr ⟨habove, hys⟩
    | succ k =>
      have hk : k ≤ ys.length := Nat.le_of_succ_le_succ hk
      rw [List.take_succ_cons, List.forall_mem_cons] at hbelow
      rw [List.pairwise_cons] at hys
      rw [List.insertIdx_succ_cons, List.pairwise_cons]
      refine ⟨fun z hz => ?_, ih hk hys.2 hbelow.2 habove⟩
      rcases (List.mem_insertIdx hk).mp hz with rfl | hz
      · exact hbelow.1
      · exact hys.1 z hz

/-- Each further value is put where it belongs. -/
theorem insertAll_spec (h : Sorts before P le) (hzs : ∀ z ∈ zs, P z) (hys : ∀ y ∈ ys, P y)
    (hsorted : ys.Pairwise fun a b => le a b = true) :
    ∃ all, zs.foldlM (fun sorted z => do
        return sorted.insertIdx (← place before z sorted 0 sorted.length) z) ys = .ok all ∧
      all.Perm (ys ++ zs) ∧ all.Pairwise fun a b => le a b = true := by
  induction zs generalizing ys with
  | nil => exact ⟨ys, rfl, by simp, hsorted⟩
  | cons z zs ih =>
    rw [List.forall_mem_cons] at hzs
    have hall : 0 + ys.length ≤ ys.length := by omega
    obtain ⟨k, hk, hle, hbelow, habove⟩ :=
      place_spec h hzs.1 hys hsorted hall (by simp) (by simp)
    have hperm : (ys.insertIdx k z).Perm (z :: ys) := List.perm_insertIdx z ys hle
    have hmem : ∀ y ∈ ys.insertIdx k z, P y := fun y hy => by
      rcases List.mem_cons.mp (hperm.mem_iff.mp hy) with rfl | hy
      · exact hzs.1
      · exact hys y hy
    obtain ⟨all, hall, hallPerm, hallSorted⟩ :=
      ih hzs.2 hmem (insertIdx_pairwise hle hsorted hbelow habove)
    refine ⟨all, ?_, ?_, hallSorted⟩
    · rw [List.foldlM_cons, hk]
      exact hall
    · exact hallPerm.trans ((hperm.append_right zs).trans List.perm_middle.symm)

/-- A run goes on as it started. -/
theorem runLength_spec (h : Sorts before P le) (falls : Bool) (hx : P x) (hys : ∀ y ∈ ys, P y) :
    ∃ k, runLength before falls x ys = .ok k ∧
      (x :: ys.take k).Pairwise fun a b => if falls then le b a = true else le a b = true := by
  induction ys generalizing x with
  | nil => exact ⟨0, rfl, by simp⟩
  | cons y ys ih =>
    rw [List.forall_mem_cons] at hys
    obtain ⟨k, hk, hrun⟩ := ih hys.1 hys.2
    have hbefore : before y x = .ok (!le x y) := h.before y x hys.1 hx
    by_cases hfalls : (!le x y) = falls
    · refine ⟨k + 1, ?_, ?_⟩
      · rw [runLength, hbefore, hk]
        simp [hfalls, bind, Except.bind, pure, Except.pure]
      · rw [List.take_succ_cons, List.pairwise_cons]
        refine ⟨fun z hz => ?_, hrun⟩
        rw [List.pairwise_cons] at hrun
        cases falls with
        | true =>
          have hyx : le y x = true :=
            (h.total y x hys.1 hx).resolve_right (by simpa using hfalls)
          rcases List.mem_cons.mp hz with rfl | hz
          · exact hyx
          · exact h.trans z y x (hrun.1 z hz) hyx
        | false =>
          have hxy : le x y = true := by simpa using hfalls
          rcases List.mem_cons.mp hz with rfl | hz
          · exact hxy
          · exact h.trans x y z hxy (hrun.1 z hz)
    · refine ⟨0, ?_, by simp⟩
      rw [runLength, hbefore]
      simp [hfalls, bind, Except.bind, pure, Except.pure]

/-- Sorting values that have an order gives all of them in that order. -/
theorem sorted_spec (h : Sorts before P le) (hxs : ∀ x ∈ xs, P x) :
    ∃ ys, sorted before xs = .ok ys ∧ ys.Perm xs ∧ ys.Pairwise fun a b => le a b = true := by
  rcases xs with _ | ⟨x, _ | ⟨y, rest⟩⟩
  · exact ⟨[], rfl, .refl _, .nil⟩
  · exact ⟨[x], rfl, .refl _, List.pairwise_singleton _ x⟩
  · have hfirst := List.forall_mem_cons.mp hxs
    have hbefore := h.before y x (hfirst.2 y List.mem_cons_self) hfirst.1
    obtain ⟨k, hk, hrun⟩ := runLength_spec h (!le x y) hfirst.1 hfirst.2
    let all := x :: y :: rest
    let run := all.take (k + 1)
    let start := if !le x y then run.reverse else run
    have hperm : start.Perm run := by
      simp only [start]
      split
      · exact run.reverse_perm
      · exact .refl run
    have hsorted : start.Pairwise fun a b => le a b = true := by
      simp only [start]
      split
      next hfalls =>
        rw [List.pairwise_reverse]
        exact hrun.imp fun hab => by rwa [if_pos hfalls] at hab
      next hfalls => exact hrun.imp fun hab => by rwa [if_neg hfalls] at hab
    have hstart : ∀ z ∈ start, P z := fun z hz => hxs z (List.mem_of_mem_take (hperm.mem_iff.mp hz))
    have hrest : ∀ z ∈ all.drop (k + 1), P z := fun z hz => hxs z (List.mem_of_mem_drop hz)
    obtain ⟨ys, hys, hysPerm, hysSorted⟩ := insertAll_spec h hrest hstart hsorted
    refine ⟨ys, ?_, ?_, hysSorted⟩
    · rw [sorted, hbefore]
      change (runLength before (!le x y) x (y :: rest)).bind _ = _
      rw [hk]
      exact hys
    · refine hysPerm.trans ((hperm.append_right _).trans ?_)
      rw [List.take_append_drop]

/-! ## Texts -/

theorem exists_strs (h : ∀ x ∈ xs, ∃ s, x = .str s) : ∃ names, xs = List.map .str names := by
  have hrange : xs ∈ Set.range (List.map str) := by
    rw [Set.range_list_map]
    intro x hx
    obtain ⟨s, rfl⟩ := h x hx
    exact ⟨s, rfl⟩
  obtain ⟨names, rfl⟩ := hrange
  exact ⟨names, rfl⟩

def textOrder (v w : Value) : Bool :=
  match v.textPoints?, w.textPoints? with
  | some s, some t => inOrder s t
  | _, _ => false

variable {known : Label → Value}

theorem str_sorts : Sorts (itemBefore known) (fun v => ∃ s, v = .str s) textOrder where
  before := by
    rintro _ _ ⟨s, rfl⟩ ⟨t, rfl⟩
    rfl
  total := by
    rintro _ _ ⟨s, rfl⟩ ⟨t, rfl⟩
    exact inOrder_total _ _
  trans := by
    intro u v w huv hvw
    unfold textOrder at *
    cases hu : u.textPoints? with
    | none => simp [hu] at huv
    | some s =>
      cases hv : v.textPoints? with
      | none => simp [hu, hv] at huv
      | some t =>
        cases hw : w.textPoints? with
        | none => simp [hv, hw] at hvw
        | some r =>
          simp only [hu, hv, hw] at huv hvw
          exact inOrder_trans huv hvw

theorem textOrder_antisymm {s t : String} (hst : textOrder (.str s) (.str t) = true)
    (hts : textOrder (.str t) (.str s) = true) : s = t := by
  have hpoints : s.toList.map Char.toNat = t.toList.map Char.toNat := inOrder_antisymm hst hts
  exact String.toList_inj.mp (List.map_injective_iff.mpr (fun _ _ => Char.toNat_inj.mp) hpoints)

theorem equalIn_str {s t : String} : equalIn known equalRoom (.str s) (.str t) = .ok (s == t) := by
  simp [equalRoom, equalIn, identical, label?, opened, equal, same]

/-- In order, equal texts are neighbours. -/
theorem neighbours_iff {ts : List String}
    (h : (ts.map str).Pairwise fun a b => textOrder a b = true) :
    neighboursDiffer (equalIn known equalRoom) (ts.map str) = .ok true ↔ ts.Nodup := by
  induction ts with
  | nil => exact iff_of_true rfl .nil
  | cons s ts ih =>
    rw [List.map_cons, List.pairwise_cons] at h
    cases ts with
    | nil => exact iff_of_true rfl (by simp)
    | cons t ts =>
      have hhead : s ∉ t :: ts ↔ s ≠ t := by
        rw [List.mem_cons, not_or, and_iff_left_iff_imp]
        -- A text that is further behind is not before the next one, which is not before it.
        rintro hst hs
        have hlater := (List.pairwise_cons.mp h.2).1 (.str s) (List.mem_map_of_mem hs)
        exact hst (textOrder_antisymm (h.1 (.str t) List.mem_cons_self) hlater)
      rw [List.nodup_cons, hhead, ← ih h.2]
      simp only [List.map_cons, neighboursDiffer, equalIn_str]
      by_cases hst : s = t <;> simp [hst, bind, Except.bind, pure, Except.pure]

/-- A list of texts passes for one without equal items just where it is one. -/
theorem unique_strs_iff (names : List String) : unique (names.map .str) = .ok true ↔ names.Nodup := by
  have hnames : ∀ v ∈ names.map str, ∃ s, v = .str s := fun v hv => by
    obtain ⟨s, -, rfl⟩ := List.mem_map.mp hv
    exact ⟨s, rfl⟩
  obtain ⟨ys, hys, hperm, hsorted⟩ := sorted_spec str_sorts hnames
  obtain ⟨ts, rfl⟩ := exists_strs fun y hy => hnames y (hperm.mem_iff.mp hy)
  have hts : ts.Perm names := (List.map_perm_map_iff fun _ _ => str.inj).mp hperm
  rw [unique, hys, ← hts.nodup_iff]
  exact neighbours_iff hsorted

end PenPlotter.Value
