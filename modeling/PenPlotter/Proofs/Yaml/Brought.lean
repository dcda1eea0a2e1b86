import PenPlotter.Proofs.Yaml.Merge
/-! # What merge keys bring

Wherever a mapping stands after some merging, its own entries are still in it, in their order, and its
merge keys at most are gone. What has come in front of them are entries of mappings that its merge keys
name, or the merge keys of such mappings. A mapping without merge keys stays as it is.
-/
namespace PenPlotter.Yaml.Graph

/-- A merge key of the mapping `n` names the node `m`, or one of a mapping that is named so does. -/
inductive Merges (g : Graph) : Nat → Nat → Prop
  | key {n m : Nat} {e : Nat × Nat} (he : e ∈ g.entries n) (hkey : g.hasTag .merge e.1 = true)
      (hm : g.Names e.2 m) : Merges g n m
  | trans {n m k : Nat} (hm : Merges g n m) (hk : Merges g m k) : Merges g n k

def Brings (g : Graph) (n : Nat) (x : Nat × Nat) : Prop := ∃ m, g.Merges n m ∧ x ∈ g.entries m

def Has (g : Graph) (n : Nat) (e : Nat × Nat) : Prop := e ∈ g.entries n ∨ g.Brings n e

theorem Has.exists_entry {g : Graph} {n : Nat} {e : Nat × Nat} (h : g.Has n e) :
    ∃ m, e ∈ g.entries m := by
  rcases h with he | ⟨m, -, he⟩
  · exact ⟨n, he⟩
  · exact ⟨m, he⟩

/-- By that many calls within each other a node can be reached: by two from a mapping to its keys and
values, and by one to what a merge key names and to what a value key stands for. -/
inductive Calls (g : Graph) : Nat → Nat → Prop
  | start (n : Nat) : Calls g 0 n
  | entry {k n m : Nat} {e : Nat × Nat} (h : Calls g k n) (he : g.Has n e)
      (hm : m = e.1 ∨ m = e.2) : Calls g (k + 2) m
  | merge {k n m : Nat} (h : Calls g k n) (hm : g.Merges n m) : Calls g (k + 1) m
  | value {k n : Nat} {e : Nat × Nat} (h : Calls g k n) (he : g.Has n e)
      (hkey : g.hasTag .value e.1 = true) : Calls g (k + 1) e.2

def ownEntries (g : Graph) (n : Nat) : List (Nat × Nat) :=
  (g.entries n).filter fun e => !g.hasTag .merge e.1

/-- What merging may make of the entries of `n`. -/
inductive Rearranged (g : Graph) (n : Nat) : List (Nat × Nat) → Prop
  | mk {front kept : List (Nat × Nat)} (hfront : ∀ x ∈ front, g.Brings n x)
      (hkept : ∀ x ∈ kept, x ∈ g.entries n)
      (hown : kept.filter (fun e => !g.hasTag .merge e.1) = g.ownEntries n) :
      Rearranged g n (front ++ kept)

variable {g g' : Graph} {n : Nat} {es : List (Nat × Nat)}

/-- A node merges something only by a merge key of its own. -/
theorem Merges.exists_key {m : Nat} (h : g.Merges n m) :
    ∃ e ∈ g.entries n, g.hasTag .merge e.1 = true := by
  induction h with
  | @key n m e he hkey hm => exact ⟨e, he, hkey⟩
  | trans _ _ ih _ => exact ih

theorem not_brings (h : ∀ e ∈ g.entries n, g.hasTag .merge e.1 = false) (x : Nat × Nat) :
    ¬g.Brings n x := by
  rintro ⟨m, hm, -⟩
  obtain ⟨e, he, hkey⟩ := hm.exists_key
  rw [h e he] at hkey
  cases hkey

theorem filter_eraseIdx {α : Type} {p : α → Bool} {xs : List α} {i : Nat} {x : α}
    (hx : xs[i]? = some x) (hp : p x = false) : (xs.eraseIdx i).filter p = xs.filter p := by
  induction xs generalizing i with
  | nil => cases hx
  | cons y xs ih =>
    cases i with
    | zero =>
      cases hx
      rw [List.eraseIdx_cons_zero, List.filter_cons_of_neg (by simp [hp])]
    | succ i =>
      rw [List.eraseIdx_cons_succ, List.filter_cons, List.filter_cons, ih hx]

namespace Rearranged

theorem refl (g : Graph) (n : Nat) : Rearranged g n (g.entries n) :=
  .mk (nofun : ∀ x ∈ [], g.Brings n x) (fun _ hx => hx) rfl

theorem has (h : Rearranged g n es) {x : Nat × Nat} (hx : x ∈ es) : g.Has n x := by
  cases h with
  | mk hfront hkept hown =>
    rcases List.mem_append.mp hx with hx | hx
    · exact .inr (hfront x hx)
    · exact .inl (hkept x hx)

/-- Also a merge key that was brought names nothing new. -/
theorem merges (h : Rearranged g n es) {e : Nat × Nat} {m : Nat} (he : e ∈ es)
    (hkey : g.hasTag .merge e.1 = true) (hm : g.Names e.2 m) : g.Merges n m := by
  rcases h.has he with he | ⟨k, hk, he⟩
  · exact .key he hkey hm
  · exact hk.trans (.key he hkey hm)

theorem erase (h : Rearranged g n es) {i : Nat} {e : Nat × Nat} (he : es[i]? = some e)
    (hkey : g.hasTag .merge e.1 = true) : Rearranged g n (es.eraseIdx i) := by
  cases h with
  | @mk front kept hfront hkept hown =>
    by_cases hi : i < front.length
    · rw [List.eraseIdx_append_of_lt_length hi]
      exact .mk (fun x hx => hfront x (List.mem_of_mem_eraseIdx hx)) hkept hown
    · have hle : front.length ≤ i := Nat.le_of_not_lt hi
      rw [List.eraseIdx_append_of_length_le hle]
      rw [List.getElem?_append_right hle] at he
      refine .mk hfront (fun x hx => hkept x (List.mem_of_mem_eraseIdx hx)) ?_
      rw [filter_eraseIdx he (by simp [hkey])]
      exact hown

theorem bring (h : Rearranged g n es) {brought : List (Nat × Nat)}
    (hbrought : ∀ x ∈ brought, g.Brings n x) : Rearranged g n (brought ++ es) := by
  cases h with
  | @mk front kept hfront hkept hown =>
    rw [← List.append_assoc]
    refine .mk (fun x hx => ?_) hkept hown
    rcases List.mem_append.mp hx with hx | hx
    · exact hbrought x hx
    · exact hfront x hx

/-- Once no merge keys are left, all others are there. -/
theorem split (h : Rearranged g n es) (hes : ∀ e ∈ es, g.hasTag .merge e.1 = false) :
    ∃ front, es = front ++ g.ownEntries n ∧ ∀ x ∈ front, g.Brings n x := by
  cases h with
  | @mk front kept hfront hkept hown =>
    have hall : kept.filter (fun e => !g.hasTag .merge e.1) = kept := by
      refine List.filter_eq_self.mpr fun e he => ?_
      simp [hes e (List.mem_append_right front he)]
    exact ⟨front, by rw [← hown, hall], hfront⟩

end Rearranged

theorem entries_setContent {c : Content} (hn : g.content? n = some c) (es : List (Nat × Nat))
    (m : Nat) : (g.setContent n (.mapping es)).entries m = if n = m then es else g.entries m := by
  unfold entries
  by_cases heq : n = m
  · rw [if_pos heq, ← heq, content?_setContent_self, hn]
    rfl
  · rw [if_neg heq, content?_setContent_ne _ heq]

theorem Derived.hasTag_merge (h : Derived g g') (n : Nat) :
    g'.hasTag .merge n = g.hasTag .merge n := by
  have hkind := h.kind n
  unfold hasTag
  rw [Bool.eq_iff_iff, beq_iff_eq, beq_iff_eq]
  refine ⟨fun hn => h.tag_of_ne hn (by decide), fun hn => ?_⟩
  unfold tag? content? at *
  cases hn' : g'[n]? with
  | none =>
    rw [hn'] at hkind
    cases hg : g[n]? with
    | none =>
      rw [hg] at hn
      cases hn
    | some node =>
      rw [hg] at hkind
      cases hkind
  | some node =>
    have htag : g'.tag? n = some node.tag := by
      unfold tag?
      rw [hn']
      rfl
    rcases h.tag htag with ht | ⟨ht, -⟩
    · exact ht.symm.trans hn
    · unfold tag? at ht
      rw [ht] at hn
      cases hn

/-- `g'` is `g` after some merging. -/
structure Merged (g g' : Graph) : Prop extends Derived g g' where
  rearranged (n : Nat) : g.Rearranged n (g'.entries n)

theorem Merged.refl (g : Graph) : Merged g g := ⟨.refl g, .refl g⟩

theorem Merged.has (h : Merged g g') {n : Nat} {e : Nat × Nat} (he : e ∈ g'.entries n) : g.Has n e :=
  (h.rearranged n).has he

theorem Merged.merges (h : Merged g g') {n m : Nat} {e : Nat × Nat} (he : e ∈ g'.entries n)
    (hkey : g'.hasTag .merge e.1 = true) {g₁ : Graph} (h₁ : Merged g g₁) (hm : g₁.Names e.2 m) :
    g.Merges n m := by
  rw [h.hasTag_merge] at hkey
  refine (h.rearranged n).merges he hkey (hm.imp_right fun ⟨items, hitems, hmem⟩ => ?_)
  exact ⟨items, h₁.sequence hitems, hmem⟩

theorem merged_kept (g : Graph) :
    KeptByMerging (Merged g)
      (fun node x => (∃ own, g.content? node = some (.mapping own)) ∧ g.Brings node x)
      g.Calls where
  settle keys h := by
    refine ⟨h.toDerived.settleValueKeys keys, fun n => ?_⟩
    rw [entries_settleValueKeys]
    exact h.rearranged n
  erase {g' node i e} h he hkey := by
    refine ⟨(derived_kept g).erase h.toDerived he hkey, fun n => ?_⟩
    obtain ⟨es, hes, -⟩ := mem_entries_iff.mp (List.mem_of_getElem? he)
    rw [entries_setContent hes]
    split
    next heq =>
      subst heq
      rw [h.hasTag_merge] at hkey
      exact (h.rearranged node).erase he hkey
    next => exact h.rearranged n
  bring {g' node brought} h hne hbrought := by
    obtain ⟨x, hx⟩ := List.exists_mem_of_ne_nil _ hne
    obtain ⟨⟨own, hown⟩, -⟩ := hbrought x hx
    have hentry : ∀ x ∈ brought, (∃ own, g.content? node = some (.mapping own)) ∧
        ∃ m, x ∈ g.entries m := by
      intro x hx
      obtain ⟨hmapping, m, -, hm⟩ := hbrought x hx
      exact ⟨hmapping, m, hm⟩
    refine ⟨(derived_kept g).bring h.toDerived hne hentry, fun n => ?_⟩
    have hkind := h.kind node
    rw [hown] at hkind
    obtain ⟨c, hc, -⟩ := Option.map_eq_some_iff.mp hkind
    rw [entries_setContent hc]
    split
    next heq =>
      subst heq
      exact (h.rearranged node).bring fun x hx => (hbrought x hx).2
    next => exact h.rearranged n
  named {g₀ g₁ g₂ node m e x} h he hkey h₁ hm h₂ hx := by
    obtain ⟨es, hes, -⟩ := mem_entries_iff.mp he
    refine ⟨h.mapping hes, ?_⟩
    have hmerges := h.merges he hkey h₁ hm
    rcases h₂.has hx with hx | ⟨k, hk, hx⟩
    · exact ⟨m, hmerges, hx⟩
    · exact ⟨k, hmerges.trans hk, hx⟩
  deeper h he hkey h₁ hm hdeep := hdeep.merge (h.merges he hkey h₁ hm)

theorem Merged.flatten (h : Merged g g') (node : Nat) :
    Keeps (Merged g) g.Calls (g'.flatten node) :=
  flatten_keeps (merged_kept g) (.start node) h

theorem hasTag_setContent (g : Graph) (n : Nat) (c : Content) (t : Tag) (m : Nat) :
    (g.setContent n c).hasTag t m = g.hasTag t m := by
  unfold hasTag
  rw [tag?_setContent]

def Unmerged (n : Nat) (es : List (Nat × Nat)) (g : Graph) : Prop :=
  g.content? n = some (.mapping es) ∧ ∀ e ∈ es, g.hasTag .merge e.1 = false

theorem Unmerged.setContent (h : Unmerged n es g) {node : Nat} (hne : node ≠ n) (c : Content) :
    Unmerged n es (g.setContent node c) := by
  refine ⟨(content?_setContent_ne c hne).trans h.1, fun e he => ?_⟩
  rw [hasTag_setContent]
  exact h.2 e he

theorem Unmerged.ne (h : Unmerged n es g) {node : Nat} {e : Nat × Nat} (he : e ∈ g.entries node)
    (hkey : g.hasTag .merge e.1 = true) : node ≠ n := by
  rintro rfl
  obtain ⟨es', hes, he⟩ := mem_entries_iff.mp he
  rw [h.1] at hes
  cases hes
  rw [h.2 e he] at hkey
  cases hkey

theorem unmerged_kept (n : Nat) (es : List (Nat × Nat)) :
    KeptByMerging (Unmerged n es) (fun node _ => node ≠ n) fun _ _ => True where
  settle keys h := by
    refine ⟨(content?_settleValueKeys _ keys n).trans h.1, fun e he => ?_⟩
    rw [hasTag_settleValueKeys]
    exact h.2 e he
  erase h he hkey := h.setContent (h.ne (List.mem_of_getElem? he) hkey) _
  bring h hne hbrought := by
    obtain ⟨x, hx⟩ := List.exists_mem_of_ne_nil _ hne
    exact h.setContent (hbrought x hx) _
  named h he hkey _ _ _ _ := h.ne he hkey
  deeper _ _ _ _ _ _ := trivial

/-- A mapping without merge keys stays as it is while others are rid of theirs. -/
theorem Unmerged.flatten (h : Unmerged n es g) (node : Nat) :
    Keeps (Unmerged n es) (fun _ _ => True) (g.flatten node) :=
  flatten_keeps (unmerged_kept n es) trivial h

end PenPlotter.Yaml.Graph
