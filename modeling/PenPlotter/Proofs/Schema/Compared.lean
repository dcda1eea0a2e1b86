import Mathlib.Data.List.InsertIdx
import PenPlotter.Proofs.Result
import PenPlotter.Proofs.Value.Parts
import PenPlotter.Schema.Unique
/-! # Comparisons that come to an end

Comparing two values takes as many calls within each other as the first one has parts within each other,
whatever the second one is. So where the items of a list hold no references and nest no more than there
is room for, it comes to an end whether they are all different.
-/
namespace PenPlotter.Value

variable {α β : Type} {known : Label → Value} {p : Prop}

theorem opened_of_plainIn {room : Nat} {a : Value} (h : plainIn room a = true) :
    opened known a = a := by
  cases a with
  | knot | back => cases room <;> simp [plainIn] at h
  | _ => rfl

/-! ## Equality -/

section
variable {alike : Value → Value → Except Fault Bool}

theorem sequencesAlike_toldIf {xs : List Value} (h : ∀ x ∈ xs, ∀ y, ToldIf p (alike x y))
    (ys : List Value) : ToldIf p (sequencesAlike alike xs ys) := by
  have hall : ToldIf p (allAlike alike xs ys) := by
    induction xs generalizing ys with
    | nil => cases ys <;> exact .ok _
    | cons x xs ih =>
      rw [List.forall_mem_cons] at h
      cases ys with
      | nil => exact .ok _
      | cons y ys =>
        refine (h.1 y).bind fun b _ => ?_
        cases b with
        | false => exact .ok _
        | true => exact ih h.2 ys
  rw [sequencesAlike]
  split
  · exact hall
  · exact .ok _

theorem mappingsAlike_toldIf {es : List (Value × Value)} (h : ∀ e ∈ es, ∀ y, ToldIf p (alike e.2 y))
    (fs : List (Value × Value)) : ToldIf p (mappingsAlike alike es fs) := by
  have hall : ToldIf p (entriesAlike alike es fs) := by
    induction es with
    | nil => exact .ok _
    | cons e es ih =>
      rw [List.forall_mem_cons] at h
      rw [entriesAlike]
      split
      next f _ =>
        refine (h.1 f.2).bind fun b _ => ?_
        cases b with
        | false => exact .ok _
        | true => exact ih h.2
      next => exact .ok _
  rw [mappingsAlike]
  split
  · exact hall
  · exact .ok _

end

/-- What is told of the parts of a value that a comparison looks at. -/
theorem parts_toldIf (known : Label → Value) (a : Value) {room : Nat} {alike : Value → Value → Except Fault Bool}
    (h : ∀ x y, ToldIf (plainIn room x = true) (alike x y)) :
    (∀ xs, opened known a = .list xs ∨ opened known a = .tuple xs →
      ∀ ys, ToldIf (plainIn (room + 1) a = true) (sequencesAlike alike xs ys)) ∧
    ∀ es, opened known a = .map es →
      ∀ fs, ToldIf (plainIn (room + 1) a = true) (mappingsAlike alike es fs) := by
  constructor
  · intro xs hopened
    refine sequencesAlike_toldIf fun x hx y => (h x y).imp fun ha => ?_
    rw [opened_of_plainIn ha] at hopened
    rcases hopened with rfl | rfl <;> exact List.all_eq_true.mp ha x hx
  · intro es hopened
    refine mappingsAlike_toldIf fun e he y => (h e.2 y).imp fun ha => ?_
    rw [opened_of_plainIn ha] at hopened
    subst hopened
    exact (Bool.and_eq_true_iff.mp (List.all_eq_true.mp ha e he)).2

theorem sameIn_toldIf (room : Nat) (a b : Value) :
    ToldIf (plainIn room a = true) (sameIn known room a b) := by
  induction room generalizing a b with
  | zero => exact .error (by simp [plainIn]) (.depth _)
  | succ room ih =>
    obtain ⟨hitems, hentries⟩ := parts_toldIf known a ih
    rw [sameIn]
    split
    · exact .ok _
    · generalize opened known a = x at hitems hentries
      split
      · exact hitems _ (.inl rfl) _
      · exact hitems _ (.inr rfl) _
      · exact hentries _ rfl _
      · exact .ok _

theorem equalIn_toldIf (room : Nat) (a b : Value) :
    ToldIf (plainIn room a = true) (equalIn known room a b) := by
  induction room generalizing a b with
  | zero => exact .error (by simp [plainIn]) (.depth _)
  | succ room ih =>
    obtain ⟨hitems, hentries⟩ := parts_toldIf known a ih
    rw [equalIn]
    split
    · exact .ok _
    · generalize opened known a = x at hitems hentries
      split
      · exact hitems _ (.inl rfl) _
      · exact hitems _ (.inl rfl) _
      · exact hitems _ (.inr rfl) _
      · exact hitems _ (.inr rfl) _
      · exact .ok _
      · exact .ok _
      · exact .ok _
      · exact .ok _
      · exact hentries _ rfl _
      · exact .ok _

/-! ## Orders -/

/-- A comparison that fails at most for the want of an order where a condition holds, and otherwise because
of a limit. -/
inductive SettlesIf (p : Prop) : Except Clash α → Prop
  | ok (a : α) : SettlesIf p (.ok a)
  | unordered : SettlesIf p (.error .unordered)
  | fault {f : Fault} (h : ¬ p) (hf : f.IsLimit) : SettlesIf p (.error (.fault f))

namespace SettlesIf

theorem of_toldIf {r : Except Fault α} (h : ToldIf p r) : SettlesIf p (r.mapError .fault) := by
  cases h with
  | ok a => exact .ok a
  | error hp hf => exact .fault hp hf

theorem bind {r : Except Clash α} {f : α → Except Clash β} (h : SettlesIf p r)
    (hf : ∀ a, SettlesIf p (f a)) : SettlesIf p (r >>= f) := by
  cases h with
  | ok a => exact hf a
  | unordered => exact .unordered
  | fault hp hlimit => exact .fault hp hlimit

theorem imp {q : Prop} {r : Except Clash α} (h : SettlesIf q r) (hpq : p → q) : SettlesIf p r := by
  cases h with
  | ok a => exact .ok a
  | unordered => exact .unordered
  | fault hq hlimit => exact .fault (fun hp => hq (hpq hp)) hlimit

end SettlesIf

theorem sequenceBefore_settles {same : Value → Value → Except Fault Bool}
    {before : Value → Value → Except Clash Bool} {xs : List Value}
    (hsame : ∀ x ∈ xs, ∀ y, ToldIf p (same x y)) (hbefore : ∀ x ∈ xs, ∀ y, SettlesIf p (before x y))
    (ys : List Value) : SettlesIf p (sequenceBefore same before xs ys) := by
  induction xs generalizing ys with
  | nil => exact .ok _
  | cons x xs ih =>
    rw [List.forall_mem_cons] at hsame hbefore
    cases ys with
    | nil => exact .ok _
    | cons y ys =>
      refine (SettlesIf.of_toldIf (hsame.1 y)).bind fun alike => ?_
      cases alike with
      | false => exact hbefore.1 y
      | true => exact ih hsame.2 hbefore.2 ys

theorem scalarBefore_settles (a b : Value) : SettlesIf p (scalarBefore a b) := by
  unfold scalarBefore
  cases scalarBefore? a b with
  | none => exact .unordered
  | some before => exact .ok before

theorem beforeIn_settles (room : Nat) (a b : Value) :
    SettlesIf (plainIn room a = true) (beforeIn known room a b) := by
  induction room generalizing a b with
  | zero => exact .fault (by simp [plainIn]) (.depth _)
  | succ room ih =>
    have hitems (xs : List Value) (hopened : opened known a = .list xs ∨ opened known a = .tuple xs)
        (ys : List Value) : SettlesIf (plainIn (room + 1) a = true)
          (sequenceBefore (sameIn known room) (beforeIn known room) xs ys) := by
      have hplain : ∀ x ∈ xs, plainIn (room + 1) a = true → plainIn room x = true := by
        intro x hx ha
        rw [opened_of_plainIn ha] at hopened
        rcases hopened with rfl | rfl <;> exact List.all_eq_true.mp ha x hx
      exact sequenceBefore_settles (fun x hx y => (sameIn_toldIf room x y).imp (hplain x hx))
        (fun x hx y => (ih x y).imp (hplain x hx)) ys
    rw [beforeIn]
    generalize opened known a = x at hitems
    split
    · exact hitems _ (.inl rfl) _
    · exact hitems _ (.inr rfl) _
    · exact .ok _
    · exact scalarBefore_settles _ _

theorem itemBefore_settles (a b : Value) :
    SettlesIf (plainIn compareRoom a = true) (itemBefore known a b) := by
  unfold itemBefore
  split
  · exact .unordered
  · exact .unordered
  · exact beforeIn_settles _ _ _

section
variable {before : Value → Value → Except Clash Bool} {x : Value} {xs ys : List Value}

theorem runLength_settles (h : ∀ x ∈ xs, ∀ y, SettlesIf p (before x y)) (falls : Bool) :
    SettlesIf p (runLength before falls x xs) := by
  induction xs generalizing x with
  | nil => exact .ok _
  | cons y xs ih =>
    rw [List.forall_mem_cons] at h
    refine (h.1 x).bind fun b => ?_
    split
    · exact (ih h.2).bind fun k => .ok _
    · exact .ok _

theorem place_settles (h : ∀ y, SettlesIf p (before x y)) (low size : Nat) :
    SettlesIf p (place before x ys low size) := by
  induction size using Nat.strongRecOn generalizing low with
  | ind size ih =>
    rw [place]
    split
    · exact .ok _
    · split
      · exact .ok _
      · refine (h _).bind fun b => ?_
        split
        · exact ih _ (by omega) _
        · exact ih _ (by omega) _

theorem sorted_settles (h : ∀ x ∈ xs, ∀ y, SettlesIf p (before x y)) :
    SettlesIf p (sorted before xs) := by
  have hinsert (zs start : List Value) (hzs : ∀ z ∈ zs, ∀ y, SettlesIf p (before z y)) :
      SettlesIf p (zs.foldlM (fun sorted z => do
        return sorted.insertIdx (← place before z sorted 0 sorted.length) z) start) := by
    induction zs generalizing start with
    | nil => exact .ok _
    | cons z zs ih =>
      rw [List.forall_mem_cons] at hzs
      rw [List.foldlM_cons]
      exact ((place_settles hzs.1 _ _).bind fun k => .ok _).bind fun next => ih next hzs.2
  unfold sorted
  split
  · exact .ok _
  · exact .ok _
  next x y rest =>
    have htail := (List.forall_mem_cons.mp h).2
    refine (htail y List.mem_cons_self x).bind fun falls => ?_
    refine (runLength_settles htail falls).bind fun k => ?_
    exact hinsert _ _ fun z hz => h z (List.mem_of_mem_drop hz)

theorem mem_sorted (h : sorted before xs = .ok ys) : ∀ y ∈ ys, y ∈ xs := by
  have hinsert (zs start : List Value) (hstart : ∀ y ∈ start, y ∈ xs) (hzs : ∀ z ∈ zs, z ∈ xs)
      (hall : zs.foldlM (fun sorted z => do
        return sorted.insertIdx (← place before z sorted 0 sorted.length) z) start = .ok ys) :
      ∀ y ∈ ys, y ∈ xs := by
    induction zs generalizing start with
    | nil =>
      cases hall
      exact hstart
    | cons z zs ih =>
      rw [List.forall_mem_cons] at hzs
      rw [List.foldlM_cons] at hall
      obtain ⟨next, hnext, hrest⟩ := bind_eq_ok.mp hall
      obtain ⟨k, -, hk⟩ := bind_eq_ok.mp hnext
      cases hk
      refine ih _ (fun y hy => ?_) hzs.2 hrest
      rcases List.eq_or_mem_of_mem_insertIdx hy with rfl | hy
      · exact hzs.1
      · exact hstart y hy
  unfold sorted at h
  split at h
  · cases h
    exact fun y hy => hy
  · cases h
    exact fun y hy => hy
  next x z rest =>
    obtain ⟨falls, -, hrest⟩ := bind_eq_ok.mp h
    obtain ⟨k, -, hall⟩ := bind_eq_ok.mp hrest
    refine hinsert _ _ (fun y hy => ?_) (fun y hy => List.mem_of_mem_drop hy) hall
    split at hy
    · exact List.mem_of_mem_take (List.mem_reverse.mp hy)
    · exact List.mem_of_mem_take hy

end

/-! ## Equal items -/

section
variable {equal : Value → Value → Except Fault Bool} {xs : List Value}

theorem neighboursDiffer_toldIf (h : ∀ x ∈ xs, ∀ y, ToldIf p (equal x y)) :
    ToldIf p (neighboursDiffer equal xs) := by
  induction xs with
  | nil => exact .ok _
  | cons x xs ih =>
    rw [List.forall_mem_cons] at h
    cases xs with
    | nil => exact .ok _
    | cons y rest =>
      refine (h.1 y).bind fun b _ => ?_
      cases b with
      | false => exact ih h.2
      | true => exact .ok _

theorem anyM_toldIf {seen : List Value} {y : Value} (h : ∀ x ∈ seen, ToldIf p (equal x y)) :
    ToldIf p (seen.anyM (equal · y)) := by
  induction seen with
  | nil => exact .ok _
  | cons x seen ih =>
    rw [List.forall_mem_cons] at h
    refine h.1.bind fun b _ => ?_
    cases b with
    | false => exact ih h.2
    | true => exact .ok _

theorem allDiffer_toldIf {seen : List Value} (hseen : ∀ x ∈ seen, ∀ y, ToldIf p (equal x y))
    (h : ∀ x ∈ xs, ∀ y, ToldIf p (equal x y)) : ToldIf p (allDiffer equal seen xs) := by
  induction xs generalizing seen with
  | nil => exact .ok _
  | cons x xs ih =>
    rw [List.forall_mem_cons] at h
    refine (anyM_toldIf fun z hz => hseen z hz x).bind fun b _ => ?_
    cases b with
    | true => exact .ok _
    | false =>
      refine ih (fun z hz => ?_) h.2
      rcases List.mem_append.mp hz with hz | hz
      · exact hseen z hz
      · exact List.mem_singleton.mp hz ▸ h.1

end

/-- It is found out whether the items of a list differ, where they hold no references and there is room
for their parts. -/
theorem unique_toldIf_plain (xs : List Value) :
    ToldIf (plainIn equalRoom (.list xs) = true) (unique xs) := by
  have hitems (hxs : plainIn equalRoom (.list xs) = true) : ∀ x ∈ xs, plainIn equalRoom x = true := by
    rw [equalRoom, plainIn, List.all_eq_true] at hxs
    exact fun x hx => plainIn_succ (hxs x hx)
  have hroom : equalRoom ≤ compareRoom := by decide
  have hsettles (known : Label → Value) :
      SettlesIf (plainIn equalRoom (.list xs) = true) (sorted (itemBefore known) xs) :=
    sorted_settles fun x hx y =>
      (itemBefore_settles x y).imp fun hxs => plainIn_mono hroom (hitems hxs x hx)
  have hequal (known : Label → Value) : ∀ x ∈ xs, ∀ y,
      ToldIf (plainIn equalRoom (.list xs) = true) (equalIn known equalRoom x y) :=
    fun x hx y => (equalIn_toldIf _ x y).imp fun hxs => hitems hxs x hx
  unfold unique
  dsimp only
  split
  next ys hys => exact neighboursDiffer_toldIf fun y hy => hequal _ y (mem_sorted hys y hy)
  next => exact allDiffer_toldIf (by simp) (hequal _)
  next f hclash =>
    have hclashes := hsettles fun l => ((Value.list xs).knots.lookup l).getD (.list xs)
    rw [hclash] at hclashes
    cases hclashes with
    | fault hp hlimit => exact .error hp hlimit

/-- Comparing the items of a list fails at most because of a limit. -/
theorem unique_toldIf (xs : List Value) : ToldIf (∃ b, unique xs = .ok b) (unique xs) := by
  have htold := unique_toldIf_plain xs
  generalize unique xs = r at htold
  cases htold with
  | ok b => exact .ok b
  | error _ hf => exact .error (by simp) hf

end PenPlotter.Value
