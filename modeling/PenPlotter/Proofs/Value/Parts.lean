import PenPlotter.Proofs.Value.Shown
/-! # Parts that can be shown

A container can be written where all its parts can. A part that is taken out of it, unfolded where it
refers to containers around it, can then be written too. How much it nests is another matter, for an
unfolded part may nest more than the whole did: `Shallow` is asked of a value with all that can be taken
out of it. A value that refers to no container around has parts that nest less than the whole.
-/
namespace PenPlotter.Value

theorem writableAll_iff {xs : List Value} :
    writableAll xs = true ↔ ∀ x ∈ xs, x.writable = true := by
  induction xs with
  | nil => simp [writableAll]
  | cons x xs ih => simp [writableAll, ih]

theorem writableEntries_iff {es : List (Value × Value)} :
    writableEntries es = true ↔ ∀ e ∈ es, e.1.writable = true ∧ e.2.writable = true := by
  induction es with
  | nil => simp [writableEntries]
  | cons e es ih =>
    rcases e with ⟨k, x⟩
    simp [writableEntries, ih, and_assoc]

theorem mapParts_writable {f : Value → Value} (hf : ∀ v, v.writable = true → (f v).writable = true)
    {v : Value} (hv : v.writable = true) : (v.mapParts f).writable = true := by
  cases v with
  | list xs | tuple xs =>
    rw [writable, writableAll_iff] at hv
    rw [mapParts, writable, writableAll_iff]
    intro y hy
    obtain ⟨x, hx, rfl⟩ := List.mem_map.mp hy
    exact hf x (hv x hx)
  | map es =>
    rw [writable, writableEntries_iff] at hv
    rw [mapParts, writable, writableEntries_iff]
    intro e he
    obtain ⟨d, hd, rfl⟩ := List.mem_map.mp he
    exact ⟨(hv d hd).1, hf d.2 (hv d hd).2⟩
  | _ => exact hv

mutual
theorem knots_writable : (v : Value) → v.writable = true → ∀ k ∈ v.knots, k.2.writable = true
  | .knot l v => by
    rw [writable, knots, List.forall_mem_cons]
    exact fun h => ⟨h, knots_writable v h⟩
  | .list xs | .tuple xs => by
    rw [writable, knots]
    exact knotsOfAll_writable xs
  | .map es => by
    rw [writable, knots]
    exact knotsOfEntries_writable es
  | .null | .bool _ | .int _ | .double _ | .str _ | .codes _ | .bytes _ | .date _ | .moment _
  | .set _ | .back .. => by
    intro h k hk
    cases hk
theorem knotsOfAll_writable : (xs : List Value) → writableAll xs = true →
    ∀ k ∈ knotsOfAll xs, k.2.writable = true
  | [] => by simp [knotsOfAll]
  | x :: xs => by
    rw [writableAll, Bool.and_eq_true]
    rintro ⟨hx, hxs⟩
    have hrest := knotsOfAll_writable xs hxs
    cases x with
    | knot l v =>
      rw [writable] at hx
      rw [knotsOfAll, List.forall_mem_cons, List.forall_mem_append]
      exact ⟨hx, knots_writable v hx, hrest⟩
    | _ => exact hrest
theorem knotsOfEntries_writable : (es : List (Value × Value)) → writableEntries es = true →
    ∀ k ∈ knotsOfEntries es, k.2.writable = true
  | [] => by simp [knotsOfEntries]
  | (key, x) :: es => by
    rw [writableEntries, Bool.and_eq_true, Bool.and_eq_true]
    rintro ⟨-, hx, hes⟩
    have hrest := knotsOfEntries_writable es hes
    cases x with
    | knot l v =>
      rw [writable] at hx
      rw [knotsOfEntries, List.forall_mem_cons, List.forall_mem_append]
      exact ⟨hx, knots_writable v hx, hrest⟩
    | _ => exact hrest
end

theorem refold_writable {known : Label → Value} (hknown : ∀ l, (known l).writable = true)
    (fuel : Nat) (path : List Label) {v : Value} (hv : v.writable = true) :
    (refold known fuel path v).writable = true := by
  induction fuel generalizing path v with
  | zero => exact hv
  | succ fuel ih =>
    cases v with
    | back l k =>
      rw [refold]
      split
      · rfl
      · rw [writable]
        exact mapParts_writable (fun v hv => ih (l :: path) hv) (hknown l)
    | knot l v =>
      rw [writable] at hv
      rw [refold]
      split
      · rfl
      · rw [writable]
        exact mapParts_writable (fun v hv => ih (l :: path) hv) hv
    | _ => exact hv

theorem untied_writable {v : Value} (hv : v.writable = true) : v.untied.writable = true := by
  unfold untied
  split
  · exact hv
  · exact hv
  · exact hv
  · exact hv

theorem detached_writable {whole v : Value} (hw : whole.writable = true) (hv : v.writable = true) :
    (detached whole v).writable = true := by
  have htied : (detached.tied whole v).writable = true := by
    refine untied_writable (refold_writable (fun l => ?_) _ _ hv)
    cases hl : whole.knots.lookup l with
    | none => exact hw
    | some k =>
      obtain ⟨before, after, hsplit, -⟩ := List.lookup_eq_some_iff.mp hl
      have hmem : (l, k) ∈ whole.knots := by simp [hsplit]
      exact knots_writable whole hw (l, k) hmem
  cases v with
  | knot l v => exact htied
  | back l k => exact htied
  | _ => exact hv

theorem items_plain {xs : List Value} (h : ∀ x ∈ xs, detached (.list xs) x = x) : items xs = xs :=
  (List.map_congr_left h).trans (List.map_id xs)

theorem items_writable {xs : List Value} (h : (list xs).writable = true) :
    ∀ x ∈ items xs, x.writable = true := by
  intro y hy
  obtain ⟨x, hx, rfl⟩ := List.mem_map.mp hy
  have hxs := h
  rw [writable, writableAll_iff] at hxs
  exact detached_writable h (hxs x hx)

theorem field?_writable {es : List (Value × Value)} (h : (map es).writable = true) {name : String}
    {x : Value} (hx : field? name es = some x) : x.writable = true := by
  obtain ⟨y, hy, rfl⟩ := Option.map_eq_some_iff.mp hx
  obtain ⟨e, he, rfl⟩ := Option.map_eq_some_iff.mp hy
  have hes := h
  rw [writable, writableEntries_iff] at hes
  exact detached_writable h (hes e (List.mem_of_find?_eq_some he)).2

/-! ## Parts within each other -/

/-- What can be taken out of a value: itself, and what can be taken out of its items and fields. -/
inductive Part : Value → Value → Prop
  | whole (v : Value) : Part v v
  | item {xs : List Value} {x v : Value} (hx : x ∈ items xs) (h : Part x v) : Part (.list xs) v
  | field {es : List (Value × Value)} {name : String} {x v : Value} (hx : field? name es = some x)
      (h : Part x v) : Part (.map es) v

def Shallow (v : Value) : Prop := ∀ part, Part v part → part.fits = true

theorem Shallow.whole {v : Value} (h : v.Shallow) : v.fits = true := h v (.whole v)

theorem Shallow.items {xs : List Value} (h : (list xs).Shallow) : ∀ x ∈ items xs, x.Shallow :=
  fun _ hx part hpart => h part (.item hx hpart)

theorem Shallow.field {es : List (Value × Value)} (h : (map es).Shallow) {name : String} {x : Value}
    (hx : field? name es = some x) : x.Shallow :=
  fun part hpart => h part (.field hx hpart)

theorem fits_key {es : List (Value × Value)} (h : (map es).fits = true) :
    ∀ e ∈ es, e.1.fits = true := by
  rw [fits, showRoom, nestsIn, nestsBy, List.all_eq_true] at h
  intro e he
  have hparts := h e he
  rw [Bool.and_eq_true] at hparts
  exact nestsIn_succ hparts.1

/-- Whether a value holds no reference to a container around it and no more than `room` values are
within each other. -/
def plainIn : (room : Nat) → Value → Bool
  | 0, _ | _ + 1, .knot .. | _ + 1, .back .. => false
  | room + 1, .list xs | room + 1, .tuple xs | room + 1, .set xs => xs.all (plainIn room)
  | room + 1, .map es => es.all fun e => plainIn room e.1 && plainIn room e.2
  | _ + 1, _ => true

theorem nestsIn_of_plainIn {room : Nat} {v : Value} (h : plainIn room v = true) :
    nestsIn room v = true := by
  induction room generalizing v with
  | zero => simp [plainIn] at h
  | succ room ih =>
    cases v with
    | list xs | tuple xs | set xs =>
      rw [plainIn, List.all_eq_true] at h
      rw [nestsIn, nestsBy, List.all_eq_true]
      exact fun x hx => ih (h x hx)
    | map es =>
      simp only [plainIn, List.all_eq_true, Bool.and_eq_true] at h
      simp only [nestsIn, nestsBy, List.all_eq_true, Bool.and_eq_true]
      exact fun e he => ⟨ih (h e he).1, ih (h e he).2⟩
    | knot | back => simp [plainIn] at h
    | _ => rfl

theorem plainIn_succ {room : Nat} {v : Value} (h : plainIn room v = true) :
    plainIn (room + 1) v = true := by
  induction room generalizing v with
  | zero => simp [plainIn] at h
  | succ room ih =>
    cases v with
    | list xs | tuple xs | set xs =>
      rw [plainIn, List.all_eq_true] at h ⊢
      exact fun x hx => ih (h x hx)
    | map es =>
      simp only [plainIn, List.all_eq_true, Bool.and_eq_true] at h
      simp only [plainIn, List.all_eq_true, Bool.and_eq_true]
      exact fun e he => ⟨ih (h e he).1, ih (h e he).2⟩
    | knot | back => simp [plainIn] at h
    | _ => rfl

theorem plainIn_mono {room more : Nat} (hle : room ≤ more) {v : Value} (h : plainIn room v = true) :
    plainIn more v = true := by
  induction hle with
  | refl => exact h
  | step _ ih => exact plainIn_succ ih

/-- A part without references is taken out as it is. -/
theorem detached_of_plainIn {room : Nat} {v : Value} (h : plainIn room v = true) (whole : Value) :
    detached whole v = v := by
  cases v with
  | knot | back => cases room <;> simp [plainIn] at h
  | _ => rfl

theorem items_of_plainIn {room : Nat} {xs : List Value} (h : plainIn room (.list xs) = true) :
    items xs = xs := by
  cases room with
  | zero => simp [plainIn] at h
  | succ room =>
    rw [plainIn, List.all_eq_true] at h
    exact items_plain fun x hx => detached_of_plainIn (h x hx) _

theorem entries_of_plainIn {room : Nat} {es : List (Value × Value)}
    (h : plainIn room (.map es) = true) : entries es = es := by
  cases room with
  | zero => simp [plainIn] at h
  | succ room =>
    simp only [plainIn, List.all_eq_true, Bool.and_eq_true] at h
    refine (List.map_congr_left fun e he => ?_).trans (List.map_id es)
    rw [detached_of_plainIn (h e he).2]
    rfl

theorem plainIn_items {room : Nat} {xs : List Value} (h : plainIn room (.list xs) = true) :
    ∀ x ∈ items xs, plainIn room x = true := by
  rw [items_of_plainIn h]
  cases room with
  | zero => simp [plainIn] at h
  | succ room =>
    rw [plainIn, List.all_eq_true] at h
    exact fun x hx => plainIn_succ (h x hx)

theorem plainIn_field {room : Nat} {es : List (Value × Value)} (h : plainIn room (.map es) = true)
    {name : String} {x : Value} (hx : field? name es = some x) : plainIn room x = true := by
  obtain ⟨y, hy, rfl⟩ := Option.map_eq_some_iff.mp hx
  obtain ⟨e, he, rfl⟩ := Option.map_eq_some_iff.mp hy
  cases room with
  | zero => simp [plainIn] at h
  | succ room =>
    simp only [plainIn, List.all_eq_true, Bool.and_eq_true] at h
    have hpart := (h e (List.mem_of_find?_eq_some he)).2
    rw [detached_of_plainIn hpart]
    exact plainIn_succ hpart

theorem plainIn_part {room : Nat} {v part : Value} (h : plainIn room v = true) (hpart : Part v part) :
    plainIn room part = true := by
  induction hpart with
  | whole => exact h
  | item hx _ ih => exact ih (plainIn_items h _ hx)
  | field hx _ ih => exact ih (plainIn_field h hx)

theorem Shallow.of_plainIn {room : Nat} {v : Value} (h : plainIn room v = true)
    (hroom : room ≤ showRoom) : v.Shallow :=
  fun _ hpart => nestsIn_mono hroom (nestsIn_of_plainIn (plainIn_part h hpart))

end PenPlotter.Value
