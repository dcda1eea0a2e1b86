/-! # Texts put together

Texts that do not hold a separator can be told apart once they are put together: where each has the
separator behind it, and where the separator stands between texts that are not empty.
-/
namespace PenPlotter.Text

variable {α : Type} {sep : α} {xs ys : List (List α)}

/-- What stands before the first separator, and what behind it. -/
theorem cut_inj {x y r t : List α} (hx : sep ∉ x) (hy : sep ∉ y)
    (h : x ++ sep :: r = y ++ sep :: t) : x = y ∧ r = t := by
  induction x generalizing y with
  | nil =>
    cases y with
    | nil => exact ⟨rfl, (List.cons.inj h).2⟩
    | cons d y => exact absurd ((List.cons.inj h).1 ▸ List.mem_cons_self) hy
  | cons c x ih =>
    cases y with
    | nil => exact absurd ((List.cons.inj h).1 ▸ List.mem_cons_self) hx
    | cons d y =>
      obtain ⟨rfl, htail⟩ := List.cons.inj h
      obtain ⟨rfl, hrest⟩ := ih (fun m => hx (List.mem_cons_of_mem c m))
        (fun m => hy (List.mem_cons_of_mem c m)) htail
      exact ⟨rfl, hrest⟩

theorem terminated_inj (hx : ∀ x ∈ xs, sep ∉ x) (hy : ∀ y ∈ ys, sep ∉ y)
    (h : xs.flatMap (· ++ [sep]) = ys.flatMap (· ++ [sep])) : xs = ys := by
  induction xs generalizing ys with
  | nil =>
    cases ys with
    | nil => rfl
    | cons y ys => simp at h
  | cons x xs ih =>
    cases ys with
    | nil => simp at h
    | cons y ys =>
      obtain ⟨hx, hxs⟩ := List.forall_mem_cons.mp hx
      obtain ⟨hy, hys⟩ := List.forall_mem_cons.mp hy
      simp only [List.flatMap_cons, List.append_assoc, List.singleton_append] at h
      obtain ⟨rfl, hrest⟩ := cut_inj hx hy h
      rw [ih hxs hys hrest]

theorem intercalate_cons {x : List α} (hx : xs ≠ []) :
    [sep].intercalate (x :: xs) = x ++ sep :: [sep].intercalate xs := by
  cases xs with
  | nil => exact absurd rfl hx
  | cons y ys => rw [List.intercalate_cons_cons, List.append_assoc, List.singleton_append]

/-- Separated texts with one more separator at the end are texts with a separator behind each. -/
theorem intercalate_append (hx : xs ≠ []) :
    [sep].intercalate xs ++ [sep] = xs.flatMap (· ++ [sep]) := by
  induction xs with
  | nil => exact absurd rfl hx
  | cons x xs ih =>
    by_cases hxs : xs = []
    · subst hxs
      rw [List.intercalate_singleton, List.flatMap_singleton]
    · rw [intercalate_cons hxs, List.append_assoc, List.cons_append, ih hxs, List.flatMap_cons,
        List.append_assoc, List.singleton_append]

/-- Texts with a separator behind each split at the separators, with nothing behind the last one. -/
theorem splitOn_terminated [BEq α] [LawfulBEq α] (hx : ∀ x ∈ xs, sep ∉ x) :
    (xs.flatMap (· ++ [sep])).splitOn sep = xs ++ [[]] := by
  have hne : xs ++ [[]] ≠ [] := List.append_ne_nil_of_right_ne_nil xs (List.cons_ne_nil _ _)
  have hjoin : [sep].intercalate (xs ++ [[]]) = xs.flatMap (· ++ [sep]) :=
    List.append_cancel_right ((intercalate_append hne).trans List.flatMap_append)
  rw [← hjoin, List.splitOn_intercalate sep _ hne]
  exact List.forall_mem_append.mpr ⟨hx, List.forall_mem_singleton.mpr List.not_mem_nil⟩

theorem count_terminated [BEq α] [LawfulBEq α] (hx : ∀ x ∈ xs, sep ∉ x) :
    (xs.flatMap (· ++ [sep])).count sep = xs.length := by
  induction xs with
  | nil => rfl
  | cons x xs ih =>
    obtain ⟨hx, hxs⟩ := List.forall_mem_cons.mp hx
    rw [List.flatMap_cons, List.count_append, List.count_append, List.count_eq_zero.mpr hx,
      List.count_singleton_self, ih hxs, List.length_cons]
    omega

theorem intercalate_ne_nil (hx : xs ≠ []) (hne : ∀ x ∈ xs, x ≠ []) : [sep].intercalate xs ≠ [] := by
  cases xs with
  | nil => exact absurd rfl hx
  | cons x xs =>
    have hxne := hne x List.mem_cons_self
    by_cases hxs : xs = []
    · subst hxs
      rwa [List.intercalate_singleton]
    · rw [intercalate_cons hxs]
      exact List.append_ne_nil_of_left_ne_nil hxne _

theorem intercalate_inj (hx : ∀ x ∈ xs, x ≠ [] ∧ sep ∉ x) (hy : ∀ y ∈ ys, y ≠ [] ∧ sep ∉ y)
    (h : [sep].intercalate xs = [sep].intercalate ys) : xs = ys := by
  by_cases hxs : xs = []
  · by_cases hys : ys = []
    · rw [hxs, hys]
    · subst hxs
      exact absurd h.symm (intercalate_ne_nil hys fun y hmem => (hy y hmem).1)
  · by_cases hys : ys = []
    · subst hys
      exact absurd h (intercalate_ne_nil hxs fun x hmem => (hx x hmem).1)
    · apply terminated_inj (fun x hmem => (hx x hmem).2) (fun y hmem => (hy y hmem).2)
      rw [← intercalate_append hxs, ← intercalate_append hys, h]

theorem mem_intercalate {c : α} (h : c ∈ [sep].intercalate xs) : c = sep ∨ ∃ x ∈ xs, c ∈ x := by
  by_cases hxs : xs = []
  · subst hxs
    simp [List.intercalate] at h
  · have hmem : c ∈ xs.flatMap (· ++ [sep]) := by
      rw [← intercalate_append hxs]
      exact List.mem_append_left _ h
    obtain ⟨x, hx, hc⟩ := List.mem_flatMap.mp hmem
    rcases List.mem_append.mp hc with hc | hc
    · exact .inr ⟨x, hx, hc⟩
    · exact .inl (List.mem_singleton.mp hc)

end PenPlotter.Text
