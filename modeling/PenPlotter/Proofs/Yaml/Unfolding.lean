import Mathlib.Data.List.Forall2
import Mathlib.Data.List.Perm.Subperm
import PenPlotter.Yaml.Collection
/-! # Values show their collections

Unfolding shows a part as a whole: a scalar as it is, and a collection with all its parts in their order,
or as a reference where it is one of those around. A collection that is known already is shown alike at
every place, since nothing in it refers to what is around it.
-/
namespace PenPlotter.Yaml

variable {cs : Array Collection} {path : List Label} {p : Part} {n : Nat}

def Collection.parts : Collection → List Part
  | .list items => items
  | .pairs items => items.flatMap fun x => [x.1, x.2]
  | .set _ => []
  | .map entries => entries.map (·.2)

def Part.Within (size : Nat) : Part → Prop
  | .scalar _ => True
  | .collection n => n < size

/-- The value shows the part, where `path` are the collections around it. -/
inductive Shows (cs : Array Collection) : List Label → Part → Value → Prop
  | scalar {path : List Label} (v : Value) : Shows cs path (.scalar v) v
  | around {path : List Label} {n : Nat} {c : Collection} (hn : cs[n]? = some c) (h : (n, 0) ∈ path) :
      Shows cs path (.collection n) (.back (n, 0) c.kind)
  | knot {path : List Label} {n : Nat} {v : Value} (h : Shows cs path (.collection n) v) :
      Shows cs path (.collection n) (.knot (n, 0) v)
  | list {path : List Label} {n : Nat} {items : List Part} {vs : List Value}
      (hn : cs[n]? = some (.list items)) (hsize : vs.length = items.length)
      (h : ∀ (i : Nat) p v, items[i]? = some p → vs[i]? = some v → Shows cs ((n, 0) :: path) p v) :
      Shows cs path (.collection n) (.list vs)
  | pairs {path : List Label} {n : Nat} {items : List (Part × Part)} {vs : List Value}
      {sides : List (Value × Value)} (hn : cs[n]? = some (.pairs items))
      (hsize : sides.length = items.length)
      (hvs : vs.map Value.untied = sides.map fun s => .tuple [s.1, s.2])
      (hfirst : ∀ (i : Nat) x s, items[i]? = some x → sides[i]? = some s →
        Shows cs ((n, i + 1) :: (n, 0) :: path) x.1 s.1)
      (hsecond : ∀ (i : Nat) x s, items[i]? = some x → sides[i]? = some s →
        Shows cs ((n, i + 1) :: (n, 0) :: path) x.2 s.2) :
      Shows cs path (.collection n) (.list vs)
  | set {path : List Label} {n : Nat} {members : List Value} (hn : cs[n]? = some (.set members)) :
      Shows cs path (.collection n) (.set (Value.inSlots members))
  | map {path : List Label} {n : Nat} {entries : List (Value × Part)} {es : List (Value × Value)}
      (hn : cs[n]? = some (.map entries)) (hkeys : es.map (·.1) = entries.map (·.1))
      (h : ∀ (i : Nat) e f, entries[i]? = some e → es[i]? = some f →
        Shows cs ((n, 0) :: path) e.2 f.2) :
      Shows cs path (.collection n) (.map es)

theorem Shows.weaken {path' : List Label} {v : Value} (h : Shows cs path p v) (hpath : path ⊆ path') :
    Shows cs path' p v := by
  induction h generalizing path' with
  | scalar v => exact .scalar v
  | around hn h => exact .around hn (hpath h)
  | knot _ ih => exact .knot (ih hpath)
  | list hn hsize _ ih =>
    exact .list hn hsize fun i p v hp hv => ih i p v hp hv (List.cons_subset_cons _ hpath)
  | @pairs _ n _ _ _ hn hsize hvs _ _ ihfirst ihsecond =>
    have hinner (i : Nat) : (n, i + 1) :: (n, 0) :: _ ⊆ (n, i + 1) :: (n, 0) :: path' :=
      List.cons_subset_cons _ (List.cons_subset_cons _ hpath)
    exact .pairs hn hsize hvs (fun i x s hx hs => ihfirst i x s hx hs (hinner i))
      fun i x s hx hs => ihsecond i x s hx hs (hinner i)
  | set hn => exact .set hn
  | map hn hkeys _ ih =>
    exact .map hn hkeys fun i e f he hf => ih i e f he hf (List.cons_subset_cons _ hpath)

/-! ## Steps of unfolding -/

/-- What unfolding a part gives: it shows the part, and if it refers to nothing around it then it does so
anywhere. -/
structure Shown (cs : Array Collection) (path : List Label) (p : Part) (u : Unfolded) : Prop where
  shows : Shows cs path p u.value
  free : u.cyclic = false → Shows cs [] p u.value

def Right (cs : Array Collection) (known : Array (Option Value)) : Prop :=
  ∀ {n : Nat} {v : Value}, known[n]?.join = some v → Shows cs [] (.collection n) v

/-- A step that is right about what is known keeps it so, and has a result that satisfies `Q`. -/
def Unfolds {α : Type} (cs : Array Collection) (Q : α → Prop) (x : Known α) : Prop :=
  ∀ known, Right cs known → Q (x.run known).1 ∧ Right cs (x.run known).2

namespace Unfolds
variable {α β : Type} {Q : α → Prop} {R : β → Prop}

theorem pure {a : α} (h : Q a) : Unfolds cs Q (pure a) := fun _ hknown => ⟨h, hknown⟩

theorem bind {x : Known α} {f : α → Known β} (hx : Unfolds cs Q x) (hf : ∀ a, Q a → Unfolds cs R (f a)) :
    Unfolds cs R (x >>= f) := fun known hknown =>
  have hafter := hx known hknown
  hf _ hafter.1 _ hafter.2

theorem mapM {f : α → Known β} {S : α → β → Prop} {as : List α}
    (h : ∀ a ∈ as, Unfolds cs (S a) (f a)) : Unfolds cs (List.Forall₂ S as) (as.mapM f) := by
  induction as with
  | nil => exact .pure .nil
  | cons a as ih =>
    rw [List.forall_mem_cons] at h
    rw [List.mapM_cons]
    exact h.1.bind fun b hb => (ih h.2).bind fun bs hbs => .pure (.cons hb hbs)

theorem get {f : Array (Option Value) → Known α} (h : ∀ known, Right cs known → Unfolds cs Q (f known)) :
    Unfolds cs Q (get >>= f) := fun known hknown => h known hknown known hknown

theorem remember {v : Value} (h : Shows cs [] (.collection n) v) :
    Unfolds cs (fun _ => True) (modify fun known => known.setIfInBounds n (some v)) := by
  refine fun known hknown => ⟨trivial, fun {m w} hw => ?_⟩
  change (known.setIfInBounds n (some v))[m]?.join = some w at hw
  rw [Array.getElem?_setIfInBounds] at hw
  split at hw
  next heq =>
    split at hw
    · cases hw
      exact heq ▸ h
    · cases hw
  next => exact hknown hw

end Unfolds

/-! ## Collections -/

theorem shown_tie {container : Value} {us : List Unfolded}
    (hshows : Shows cs path (.collection n) container)
    (hfree : (∀ u ∈ us, u.cyclic = false) → Shows cs [] (.collection n) container) :
    Shown cs path (.collection n) (.tie (n, 0) container us) := by
  unfold Unfolded.tie
  split
  next => exact ⟨.knot hshows, nofun⟩
  next hnone =>
    refine ⟨hshows, fun _ => hfree fun u hu => ?_⟩
    rw [Bool.not_eq_true, List.any_eq_false] at hnone
    exact Bool.not_eq_true _ ▸ hnone u hu

/-- What shows a part with nothing around but one collection. -/
theorem Shown.alone {u : Unfolded} (h : Shown cs path p u) (hu : u.cyclic = false)
    (around : List Label) : Shows cs around p u.value :=
  (h.free hu).weaken (List.nil_subset _)

theorem forall₂_getElem? {α β : Type} {S : α → β → Prop} {as : List α} {bs : List β}
    (h : List.Forall₂ S as bs) {i : Nat} {a : α} {b : β} (ha : as[i]? = some a)
    (hb : bs[i]? = some b) : S a b := by
  obtain ⟨hi, rfl⟩ := List.getElem?_eq_some_iff.mp ha
  obtain ⟨hj, rfl⟩ := List.getElem?_eq_some_iff.mp hb
  exact h.get hi hj

theorem getElem?_map_eq_some {α β : Type} {f : α → β} {as : List α} {i : Nat} {b : β}
    (h : (as.map f)[i]? = some b) : ∃ a, as[i]? = some a ∧ f a = b := by
  rw [List.getElem?_map] at h
  exact Option.map_eq_some_iff.mp h

theorem shows_list {items : List Part} {us : List Unfolded} (hn : cs[n]? = some (.list items))
    (hsize : items.length = us.length)
    (h : ∀ {i : Nat} {p : Part} {u : Unfolded}, items[i]? = some p → us[i]? = some u →
      Shows cs ((n, 0) :: path) p u.value) :
    Shows cs path (.collection n) (.list (us.map (·.value))) := by
  refine .list hn (by rw [List.length_map, hsize]) fun i p v hp hv => ?_
  obtain ⟨u, hu, rfl⟩ := getElem?_map_eq_some hv
  exact h hp hu

theorem shown_list {items : List Part} {us : List Unfolded} (hn : cs[n]? = some (.list items))
    (hus : List.Forall₂ (Shown cs ((n, 0) :: path)) items us) :
    Shown cs path (.collection n) (.list (n, 0) us) := by
  refine shown_tie (shows_list hn hus.length_eq fun hp hu => ?_) fun hfree =>
    shows_list hn hus.length_eq fun hp hu => ?_
  · exact (forall₂_getElem? hus hp hu).shows
  · exact (forall₂_getElem? hus hp hu).alone (hfree _ (List.mem_of_getElem? hu)) _

theorem shows_map {entries : List (Value × Part)} {us : List (Value × Unfolded)}
    (hn : cs[n]? = some (.map entries)) (hkeys : us.map (·.1) = entries.map (·.1))
    (h : ∀ {i : Nat} {e : Value × Part} {u : Value × Unfolded}, entries[i]? = some e →
      us[i]? = some u → Shows cs ((n, 0) :: path) e.2 u.2.value) :
    Shows cs path (.collection n) (.map (us.map fun u => (u.1, u.2.value))) := by
  refine .map hn (by rw [List.map_map, ← hkeys]; rfl) fun i e f he hf => ?_
  obtain ⟨u, hu, rfl⟩ := getElem?_map_eq_some hf
  exact h he hu

theorem shown_map {entries : List (Value × Part)} {us : List (Value × Unfolded)}
    (hn : cs[n]? = some (.map entries))
    (hus : List.Forall₂ (fun e u => u.1 = e.1 ∧ Shown cs ((n, 0) :: path) e.2 u.2) entries us) :
    Shown cs path (.collection n) (.map (n, 0) us) := by
  have hkeys : us.map (·.1) = entries.map (·.1) := by
    clear hn
    induction hus with
    | nil => rfl
    | cons hu _ ih => exact congrArg₂ List.cons hu.1 ih
  refine shown_tie (shows_map hn hkeys fun he hu => ?_) fun hfree =>
    shows_map hn hkeys fun he hu => ?_
  · exact (forall₂_getElem? hus he hu).2.shows
  · have hcyclic := hfree _ (List.mem_map_of_mem (List.mem_of_getElem? hu))
    exact (forall₂_getElem? hus he hu).2.alone hcyclic _

structure ShownPairs (cs : Array Collection) (path : List Label) (n place : Nat)
    (items : List (Part × Part)) (us : List Unfolded) (sides : List (Unfolded × Unfolded)) : Prop where
  size : sides.length = items.length
  values : us.map (fun u => u.value.untied) = sides.map fun s => .tuple [s.1.value, s.2.value]
  cyclic : us.map (·.cyclic) = sides.map fun s => s.1.cyclic || s.2.cyclic
  shown {i : Nat} {x : Part × Part} {s : Unfolded × Unfolded} : items[i]? = some x →
    sides[i]? = some s → Shown cs ((n, place + i) :: path) x.1 s.1 ∧
      Shown cs ((n, place + i) :: path) x.2 s.2

theorem pair_value (label : Label) (u v : Unfolded) :
    (Unfolded.pair label u v).value.untied = .tuple [u.value, v.value] := by
  unfold Unfolded.pair Unfolded.tie
  split <;> rfl

theorem pair_cyclic (label : Label) (u v : Unfolded) :
    (Unfolded.pair label u v).cyclic = (u.cyclic || v.cyclic) := by
  unfold Unfolded.pair Unfolded.tie
  rw [List.any_cons, List.any_cons, List.any_nil, Bool.or_false]
  split
  next h => exact h.symm
  next h => exact (Bool.not_eq_true _ ▸ h).symm

theorem unfoldPairs_unfolds {part : List Label → Part → Known Unfolded} {place : Nat}
    {items : List (Part × Part)} (h : ∀ x ∈ items, ∀ i, Unfolds cs (Shown cs ((n, i) :: path) x.1)
      (part ((n, i) :: path) x.1) ∧ Unfolds cs (Shown cs ((n, i) :: path) x.2)
      (part ((n, i) :: path) x.2)) :
    Unfolds cs (fun us => ∃ sides, ShownPairs cs path n place items us sides)
      (unfoldPairs part path n place items) := by
  induction items generalizing place with
  | nil => exact .pure ⟨[], rfl, rfl, rfl, nofun⟩
  | cons x items ih =>
    rw [List.forall_mem_cons] at h
    rcases x with ⟨x, y⟩
    rw [unfoldPairs]
    refine (h.1 place).1.bind fun u hu => (h.1 place).2.bind fun v hv => (ih h.2).bind ?_
    rintro us ⟨sides, hsides⟩
    refine .pure ⟨(u, v) :: sides, ?_, ?_, ?_, fun {i z s} hz hs => ?_⟩
    · rw [List.length_cons, List.length_cons, hsides.size]
    · rw [List.map_cons, List.map_cons, hsides.values, pair_value]
    · rw [List.map_cons, List.map_cons, hsides.cyclic, pair_cyclic]
    · cases i with
      | zero =>
        cases hz
        cases hs
        exact ⟨hu, hv⟩
      | succ i =>
        have hshown := hsides.shown hz hs
        rwa [Nat.add_right_comm] at hshown

theorem shows_pairs {items : List (Part × Part)} {us : List Unfolded}
    {sides : List (Unfolded × Unfolded)} (hn : cs[n]? = some (.pairs items))
    (hsize : sides.length = items.length)
    (hvalues : us.map (fun u => u.value.untied) = sides.map fun s => .tuple [s.1.value, s.2.value])
    (h : ∀ {i : Nat} {x : Part × Part} {s : Unfolded × Unfolded}, items[i]? = some x →
      sides[i]? = some s →
      Shows cs ((n, i + 1) :: (n, 0) :: path) x.1 s.1.value ∧
        Shows cs ((n, i + 1) :: (n, 0) :: path) x.2 s.2.value) :
    Shows cs path (.collection n) (.list (us.map (·.value))) := by
  let shownSides := sides.map fun s => (s.1.value, s.2.value)
  have hmap : (us.map (·.value)).map Value.untied = shownSides.map fun s => .tuple [s.1, s.2] := by
    rw [List.map_map, List.map_map]
    exact hvalues
  refine .pairs hn (by rw [List.length_map, hsize]) hmap (fun i x s hx hs => ?_)
    fun i x s hx hs => ?_
  · obtain ⟨side, hside, rfl⟩ := getElem?_map_eq_some hs
    exact (h hx hside).1
  · obtain ⟨side, hside, rfl⟩ := getElem?_map_eq_some hs
    exact (h hx hside).2

theorem shown_pairs {items : List (Part × Part)} {us : List Unfolded}
    {sides : List (Unfolded × Unfolded)} (hn : cs[n]? = some (.pairs items))
    (hus : ShownPairs cs ((n, 0) :: path) n 1 items us sides) :
    Shown cs path (.collection n) (.list (n, 0) us) := by
  have hshown {i : Nat} {x : Part × Part} {s : Unfolded × Unfolded} (hx : items[i]? = some x)
      (hs : sides[i]? = some s) : Shown cs ((n, i + 1) :: (n, 0) :: path) x.1 s.1 ∧
        Shown cs ((n, i + 1) :: (n, 0) :: path) x.2 s.2 := by
    have h := hus.shown hx hs
    rwa [Nat.add_comm] at h
  refine shown_tie (shows_pairs hn hus.size hus.values fun hx hs => ?_) fun hfree =>
    shows_pairs hn hus.size hus.values fun {i x s} hx hs => ?_
  · exact ⟨(hshown hx hs).1.shows, (hshown hx hs).2.shows⟩
  · have hmem : (s.1.cyclic || s.2.cyclic) ∈ us.map (·.cyclic) :=
      hus.cyclic ▸ List.mem_map_of_mem (List.mem_of_getElem? hs)
    obtain ⟨w, hw, hcyclic⟩ := List.mem_map.mp hmem
    rw [hfree w hw] at hcyclic
    obtain ⟨hfirst, hsecond⟩ := Bool.or_eq_false_iff.mp hcyclic.symm
    exact ⟨(hshown hx hs).1.alone hfirst _, (hshown hx hs).2.alone hsecond _⟩

/-! ## Parts -/

theorem collection_unfolds {part : List Label → Part → Known Unfolded} {c : Collection}
    (hn : cs[n]? = some c)
    (h : ∀ p ∈ c.parts, ∀ i, Unfolds cs (Shown cs ((n, 0) :: path) p) (part ((n, 0) :: path) p) ∧
      Unfolds cs (Shown cs ((n, i) :: (n, 0) :: path) p) (part ((n, i) :: (n, 0) :: path) p)) :
    Unfolds cs (Shown cs path (.collection n)) (c.unfold part path n) := by
  cases c with
  | list items =>
    exact (Unfolds.mapM fun p hp => (h p hp 0).1).bind fun us hus => .pure (shown_list hn hus)
  | pairs items =>
    refine (unfoldPairs_unfolds fun x hx i => ?_).bind fun us ⟨sides, hus⟩ =>
      .pure (shown_pairs hn hus)
    exact ⟨(h x.1 (List.mem_flatMap.mpr ⟨x, hx, by simp⟩) i).2,
      (h x.2 (List.mem_flatMap.mpr ⟨x, hx, by simp⟩) i).2⟩
  | set members => exact .pure ⟨.set hn, fun _ => .set hn⟩
  | map entries =>
    refine (Unfolds.mapM fun e he => ?_).bind fun us hus => .pure (shown_map hn hus)
    exact (h e.2 (List.mem_map_of_mem he) 0).1.bind fun u hu => .pure ⟨rfl, hu⟩

def Closed (cs : Array Collection) : Prop :=
  ∀ {n : Nat} {c : Collection}, cs[n]? = some c → ∀ p ∈ c.parts, p.Within cs.size

theorem Part.Within.mono {size size' : Nat} (h : p.Within size) (hsize : size ≤ size') :
    p.Within size' := by
  cases p with
  | scalar v => exact trivial
  | collection n => exact Nat.lt_of_lt_of_le h hsize

theorem Closed.push (hcs : Closed cs) {c : Collection} (hc : ∀ p ∈ c.parts, p.Within cs.size) :
    Closed (cs.push c) := by
  intro n d hd p hp
  rw [Array.size_push]
  rw [Array.getElem?_push] at hd
  split at hd
  next =>
    cases hd
    exact (hc p hp).mono (Nat.le_succ _)
  next => exact (hcs hd p hp).mono (Nat.le_succ _)

theorem Closed.set (hcs : Closed cs) {c : Collection} (hc : ∀ p ∈ c.parts, p.Within cs.size) :
    Closed (cs.setIfInBounds n c) := by
  intro m d hd p hp
  rw [Array.size_setIfInBounds]
  rw [Array.getElem?_setIfInBounds] at hd
  split at hd
  next =>
    split at hd
    · cases hd
      exact hc p hp
    · cases hd
  next => exact hcs hd p hp

/-- `around` are the collections of `path`, which cannot be more than there are. -/
theorem unfold_unfolds (hcs : Closed cs) (fuel : Nat) {around : List Nat} (hnodup : around.Nodup)
    (hbound : ∀ n ∈ around, n < cs.size) (hfuel : around.length + fuel = cs.size + 1)
    (hpath : ∀ n ∈ around, (n, 0) ∈ path) (hp : p.Within cs.size) :
    Unfolds cs (Shown cs path p) (p.unfold cs fuel path) := by
  induction fuel generalizing around path p with
  | zero =>
    have hsubset : around ⊆ List.range cs.size := fun n hn => List.mem_range.mpr (hbound n hn)
    have hlength := (List.subperm_of_subset hnodup hsubset).length_le
    rw [List.length_range] at hlength
    omega
  | succ fuel ih =>
    cases p with
    | scalar v => exact .pure ⟨.scalar v, fun _ => .scalar v⟩
    | collection n =>
      rw [Part.unfold]
      refine .get fun known hknown => ?_
      split
      next v hv => exact .pure ⟨(hknown hv).weaken (List.nil_subset _), fun _ => hknown hv⟩
      next =>
        have hn : cs[n]? = some cs[n] := Array.getElem?_eq_getElem hp
        rw [hn]
        dsimp only
        split
        next haround => exact .pure ⟨.around hn (by simpa using haround), nofun⟩
        next hnew =>
          rw [List.contains_iff_mem] at hnew
          have hdeeper {path' : List Label} (hsub : (n, 0) :: path ⊆ path') {p : Part}
              (hp : p.Within cs.size) :
              Unfolds cs (Shown cs path' p) (p.unfold cs fuel path') := by
            have haround : (n :: around).Nodup :=
              List.nodup_cons.mpr ⟨fun hn => hnew (hpath n hn), hnodup⟩
            refine ih haround ?_ ?_ ?_ hp
            · exact List.forall_mem_cons.mpr ⟨‹_›, hbound⟩
            · rw [List.length_cons]
              omega
            · exact List.forall_mem_cons.mpr
                ⟨hsub List.mem_cons_self, fun m hm => hsub (List.mem_cons_of_mem _ (hpath m hm))⟩
          refine (collection_unfolds hn fun p hp i => ⟨?_, ?_⟩).bind fun u hu => ?_
          · exact hdeeper (List.Subset.refl _) (hcs hn p hp)
          · exact hdeeper (List.subset_cons_self _ _) (hcs hn p hp)
          · split
            next hfree =>
              have hknown := Unfolds.remember (hu.free (by simpa using hfree))
              exact hknown.bind fun _ _ => .pure hu
            next => exact .pure hu

/-- The value of a part is what it shows with nothing around, without the knot at its top. -/
theorem Part.value_shows (hcs : Closed cs) (hp : p.Within cs.size) :
    ∃ v, Shows cs [] p v ∧ p.value cs = v.untied := by
  have hunfolds : Unfolds cs (Shown cs [] p) (p.unfold cs (cs.size + 1) []) :=
    unfold_unfolds hcs (cs.size + 1) .nil (by simp) (by simp) (by simp) hp
  have hshown := hunfolds (Array.replicate cs.size none) fun {n v} hv => by
    rw [Array.getElem?_replicate] at hv
    split at hv <;> cases hv
  exact ⟨_, hshown.1.shows, rfl⟩

end PenPlotter.Yaml
