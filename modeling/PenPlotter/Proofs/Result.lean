import PenPlotter.Fault
/-! # Results that are there

When a computation with failures has a result: a step and what follows it, and a step for each of some
values.
-/
namespace PenPlotter

variable {ε α β : Type}

theorem bind_eq_ok {x : Except ε α} {f : α → Except ε β} {b : β} :
    (x >>= f) = .ok b ↔ ∃ a, x = .ok a ∧ f a = .ok b := by
  cases x with
  | error e => exact ⟨(by cases ·), fun ⟨_, h, _⟩ => (by cases h)⟩
  | ok a => exact ⟨fun h => ⟨a, rfl, h⟩, fun ⟨_, h, hf⟩ => (by cases h; exact hf)⟩

theorem bind_eq_error {x : Except ε α} {f : α → Except ε β} {e : ε} :
    (x >>= f) = .error e ↔ x = .error e ∨ ∃ a, x = .ok a ∧ f a = .error e := by
  cases x with
  | error d =>
    refine ⟨fun h => .inl (by cases h; rfl), ?_⟩
    rintro (h | ⟨_, h, _⟩)
    · cases h
      rfl
    · cases h
  | ok a =>
    refine ⟨fun h => .inr ⟨a, rfl, h⟩, ?_⟩
    rintro (h | ⟨_, h, hf⟩)
    · cases h
    · cases h
      exact hf

theorem map_eq_ok {x : Except ε α} {f : α → β} {b : β} :
    x.map f = .ok b ↔ ∃ a, x = .ok a ∧ f a = b := by
  cases x with
  | error e => exact ⟨(by cases ·), fun ⟨_, h, _⟩ => (by cases h)⟩
  | ok a => exact ⟨fun h => (by cases h; exact ⟨a, rfl, rfl⟩), fun ⟨_, h, hf⟩ => (by cases h; cases hf; rfl)⟩

theorem mapError_eq_ok {δ : Type} {x : Except ε α} {f : ε → δ} {a : α} :
    x.mapError f = .ok a ↔ x = .ok a := by
  cases x with
  | error e => exact ⟨(by cases ·), (by cases ·)⟩
  | ok b => exact ⟨fun h => (by cases h; rfl), fun h => (by cases h; rfl)⟩

/-- A step for each value has a result where each step has one, and gives them in order. -/
theorem mapM_eq_ok {f : α → Except ε β} {xs : List α} {ys : List β} :
    xs.mapM f = .ok ys ↔ xs.map f = ys.map .ok := by
  induction xs generalizing ys with
  | nil =>
    cases ys with
    | nil => exact ⟨fun _ => rfl, fun _ => rfl⟩
    | cons y ys => exact ⟨(by cases ·), fun h => by simp at h⟩
  | cons x xs ih =>
    simp only [List.mapM_cons, bind_eq_ok, List.map_cons]
    constructor
    · rintro ⟨y, hx, zs, hxs, h⟩
      cases h
      rw [hx, ih.mp hxs, List.map_cons]
    · intro h
      cases ys with
      | nil => simp at h
      | cons y ys =>
        rw [List.map_cons, List.cons.injEq] at h
        exact ⟨y, h.1, ys, ih.mpr h.2, rfl⟩

/-- A step for each value fails as the first step that fails. -/
theorem mapM_eq_error {f : α → Except ε β} {before after : List α} {x : α} {e : ε}
    (hbefore : ∀ y ∈ before, ∃ b, f y = .ok b) (hx : f x = .error e) :
    (before ++ x :: after).mapM f = .error e := by
  induction before with
  | nil =>
    rw [List.nil_append, List.mapM_cons, hx]
    rfl
  | cons y before ih =>
    obtain ⟨b, hb⟩ := hbefore y List.mem_cons_self
    rw [List.cons_append, List.mapM_cons, hb, ih fun z hz => hbefore z (List.mem_cons_of_mem y hz)]
    rfl

theorem optionMapM_eq_ok {f : α → Except ε β} {o : Option α} {r : Option β} :
    o.mapM f = .ok r ↔ (o = none ∧ r = none) ∨ ∃ a b, o = some a ∧ f a = .ok b ∧ r = some b := by
  cases o with
  | none =>
    constructor
    · intro h
      cases h
      exact .inl ⟨rfl, rfl⟩
    · rintro (⟨-, rfl⟩ | ⟨a, b, ha, -⟩)
      · rfl
      · cases ha
  | some a =>
    rw [Option.mapM_some]
    cases hf : f a with
    | error e =>
      constructor
      · intro h
        cases h
      · rintro (⟨ha, -⟩ | ⟨a', b, ha, hb, -⟩)
        · cases ha
        · cases ha
          cases hf.symm.trans hb
    | ok c =>
      constructor
      · intro h
        cases h
        exact .inr ⟨a, c, rfl, hf, rfl⟩
      · rintro (⟨ha, -⟩ | ⟨a', b, ha, hb, rfl⟩)
        · cases ha
        · cases ha
          cases hf.symm.trans hb
          rfl

/-- What every step of a fold keeps holds of its result. -/
theorem foldlM_invariant {P : β → Prop} {f : β → α → Except ε β}
    (hf : ∀ b a b', P b → f b a = .ok b' → P b') {xs : List α} {b c : β} (hb : P b)
    (h : xs.foldlM f b = .ok c) : P c := by
  induction xs generalizing b with
  | nil =>
    cases h
    exact hb
  | cons x xs ih =>
    rw [List.foldlM_cons, bind_eq_ok] at h
    obtain ⟨b', hb', hrest⟩ := h
    exact ih (hf b x b' hb hb') hrest

theorem toOption_eq_some {r : Except ε α} {a : α} (h : r.toOption = some a) : r = .ok a := by
  cases r with
  | error e => cases h
  | ok b =>
    cases h
    rfl

def error? : Except ε α → Option ε
  | .error e => some e
  | .ok _ => none

theorem error?_eq_some {r : Except ε α} {e : ε} (h : error? r = some e) : r = .error e := by
  cases r with
  | error f =>
    cases h
    rfl
  | ok a => cases h

theorem exists_ok {r : Except ε α × β} (h : r.1.toOption.isSome = true) : ∃ a b, r = (.ok a, b) := by
  rcases r with ⟨e | a, b⟩
  · cases h
  · exact ⟨a, b, rfl⟩

theorem exists_map_ok {xs : List (Except ε α)} :
    (∀ x ∈ xs, ∃ a, x = .ok a) ↔ ∃ as : List α, xs = as.map .ok := by
  induction xs with
  | nil => exact ⟨fun _ => ⟨[], rfl⟩, fun _ => by simp⟩
  | cons x xs ih =>
    rw [List.forall_mem_cons, ih]
    constructor
    · rintro ⟨⟨a, rfl⟩, as, rfl⟩
      exact ⟨a :: as, rfl⟩
    · rintro ⟨_ | ⟨a, as⟩, h⟩
      · simp at h
      · rw [List.map_cons, List.cons.injEq] at h
        exact ⟨⟨a, h.1⟩, as, h.2⟩

/-- A step for each value has a result just where each step has one. -/
theorem exists_mapM_ok {f : α → Except ε β} {xs : List α} :
    (∃ ys, xs.mapM f = .ok ys) ↔ ∀ x ∈ xs, ∃ y, f x = .ok y := by
  simp only [mapM_eq_ok, ← exists_map_ok, List.forall_mem_map]

theorem exists_of_mapM {f : α → Except ε β} {xs : List α} {ys : List β} (h : xs.mapM f = .ok ys)
    {y : β} (hy : y ∈ ys) : ∃ x ∈ xs, f x = .ok y := by
  have hmem : Except.ok y ∈ xs.map f := mapM_eq_ok.mp h ▸ List.mem_map_of_mem hy
  exact List.mem_map.mp hmem

theorem map_ok_injective {as bs : List α} (h : as.map (Except.ok (ε := ε)) = bs.map .ok) :
    as = bs :=
  (List.map_inj_right fun _ _ => Except.ok.inj).mp h

end PenPlotter
