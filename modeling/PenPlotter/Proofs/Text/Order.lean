import Mathlib.Data.Char
import Mathlib.Data.List.Perm.Basic
import Mathlib.Order.Lattice
import PenPlotter.Text.Code
/-! # The order of names

Texts are put in the order of their characters, which is a linear order. What is sorted by names that are all
different is therefore told by what it holds, in whatever order that was found.
-/
namespace PenPlotter.Text

section Lists
variable {α : Type} [LinearOrder α] [BEq α] [LawfulBEq α] {s t u : List α}

theorem inOrder_cons {a b : α} :
    inOrder (a :: s) (b :: t) = true ↔ a < b ∨ a = b ∧ inOrder s t = true := by
  simp [inOrder]

theorem inOrder_total (s t : List α) : inOrder s t = true ∨ inOrder t s = true := by
  induction s generalizing t with
  | nil => exact .inl rfl
  | cons a s ih =>
    cases t with
    | nil => exact .inr rfl
    | cons b t =>
      rw [inOrder_cons, inOrder_cons]
      rcases lt_trichotomy a b with hlt | rfl | hgt
      · exact .inl (.inl hlt)
      · exact (ih t).imp (.inr ⟨rfl, ·⟩) (.inr ⟨rfl, ·⟩)
      · exact .inr (.inl hgt)

theorem inOrder_trans (hst : inOrder s t = true) (htu : inOrder t u = true) :
    inOrder s u = true := by
  induction s generalizing t u with
  | nil => rfl
  | cons a s ih =>
    rcases t with _ | ⟨b, t⟩
    · cases hst
    rcases u with _ | ⟨c, u⟩
    · cases htu
    rw [inOrder_cons] at hst htu ⊢
    rcases hst with hab | ⟨rfl, hst⟩
    · rcases htu with hbc | ⟨rfl, -⟩
      · exact .inl (lt_trans hab hbc)
      · exact .inl hab
    · exact htu.imp id (And.imp_right (ih hst))

theorem inOrder_antisymm (hst : inOrder s t = true) (hts : inOrder t s = true) : s = t := by
  induction s generalizing t with
  | nil =>
    cases t with
    | nil => rfl
    | cons b t => cases hts
  | cons a s ih =>
    cases t with
    | nil => cases hst
    | cons b t =>
      rw [inOrder_cons] at hst hts
      rcases hst with hab | ⟨rfl, hst⟩
      · rcases hts with hba | ⟨rfl, -⟩
        · exact absurd hab (lt_asymm hba)
        · exact absurd hab (lt_irrefl _)
      · rcases hts with haa | ⟨-, hts⟩
        · exact absurd haa (lt_irrefl _)
        · rw [ih hst hts]

end Lists

/-- A name that comes before another one ends within it, or has the lesser character in the first place
where they differ. -/
def Before (s t : String) : Prop := List.Lex (fun a b => a.toNat < b.toNat) s.toList t.toList

theorem before_iff {s t : String} : Before s t ↔ inOrder t.toList s.toList = false := by
  rw [Before]
  generalize s.toList = cs, t.toList = ds
  induction cs generalizing ds with
  | nil =>
    cases ds with
    | nil => simp [inOrder]
    | cons d ds => exact iff_of_true .nil rfl
  | cons c cs ih =>
    cases ds with
    | nil => simp [inOrder]
    | cons d ds =>
      rw [← Bool.not_eq_true, inOrder_cons, List.cons_lex_cons_iff, ih, ← Bool.not_eq_true]
      rcases lt_trichotomy c d with hlt | rfl | hgt
      · exact iff_of_true (.inl hlt) (by simp [lt_asymm hlt, ne_of_gt hlt])
      · simp
      · have hnot : ¬ c.toNat < d.toNat := lt_asymm hgt
        simp [hgt, hnot, ne_of_gt hgt]

variable {α : Type} {name : α → String} {xs ys : List α}

theorem mem_sortBy {a : α} : a ∈ sortBy name xs ↔ a ∈ xs := List.mem_mergeSort

/-- Values with different names are in the strict order of their names. -/
theorem sortBy_pairwise (h : (xs.map name).Nodup) :
    (sortBy name xs).Pairwise fun a b => Before (name a) (name b) := by
  have htrans (a b c : α) : inOrder (name a).toList (name b).toList = true →
      inOrder (name b).toList (name c).toList = true →
        inOrder (name a).toList (name c).toList = true :=
    inOrder_trans
  have htotal (a b : α) : (inOrder (name a).toList (name b).toList ||
      inOrder (name b).toList (name a).toList) = true :=
    Bool.or_eq_true_iff.mpr (inOrder_total _ _)
  have hsorted : (sortBy name xs).Pairwise fun a b =>
      inOrder (name a).toList (name b).toList = true :=
    List.pairwise_mergeSort htrans htotal xs
  have hnames : (sortBy name xs).Pairwise fun a b => name a ≠ name b :=
    List.pairwise_map.mp ((List.mergeSort_perm xs _).map name |>.nodup_iff.mpr h)
  refine (hsorted.and hnames).imp fun {a b} hab => before_iff.mpr ?_
  rw [← Bool.not_eq_true]
  intro hba
  exact hab.2 (String.toList_inj.mp (inOrder_antisymm hab.1 hba))

/-- Two lists that are in the strict order of their names and hold the same are the same. -/
theorem eq_of_before (hx : xs.Pairwise fun a b => Before (name a) (name b))
    (hy : ys.Pairwise fun a b => Before (name a) (name b)) (hmem : ∀ a, a ∈ xs ↔ a ∈ ys) :
    xs = ys := by
  have hirrefl (a : α) : ¬ Before (name a) (name a) := by
    rw [before_iff, Bool.not_eq_false]
    exact (inOrder_total _ _).elim id id
  have hasymm (a b : α) (hab : Before (name a) (name b)) : ¬ Before (name b) (name a) := by
    rw [before_iff] at hab ⊢
    rw [Bool.not_eq_false]
    exact (inOrder_total _ _).resolve_right (by simp [hab])
  have hnodup {zs : List α} (hz : zs.Pairwise fun a b => Before (name a) (name b)) : zs.Nodup :=
    hz.imp fun {a b} hab => by
      rintro rfl
      exact hirrefl a hab
  exact List.Perm.eq_of_pairwise (fun a b _ _ hab hba => absurd hba (hasymm a b hab)) hx hy
    ((List.perm_ext_iff_of_nodup (hnodup hx) (hnodup hy)).mpr hmem)

end PenPlotter.Text
