import PenPlotter.Proofs.Yaml.Flaw
import PenPlotter.Yaml.Node
/-! # What merging leaves of a document

Ridding mappings of their merge keys moves entries from one mapping to another and makes ordinary texts
of value keys. All else stays as the document has it. The only fault on the way is that of too many
calls within each other, by one for each merge key that leads to another mapping.
-/
namespace PenPlotter.Yaml.Graph
open Text

/-- `g'` is `g` with entries moved among its mappings and value keys made ordinary texts. -/
structure Derived (g g' : Graph) : Prop where
  tag {n : Nat} {t : Tag} : g'.tag? n = some t →
    g.tag? n = some t ∨ g.tag? n = some .value ∧ t = .str
  scalar {n : Nat} {text : List Code} : g'.content? n = some (.scalar text) →
    g.content? n = some (.scalar text)
  sequence {n : Nat} {items : List Nat} : g'.content? n = some (.sequence items) →
    g.content? n = some (.sequence items)
  kind (n : Nat) : (g'.content? n).map (·.kindName) = (g.content? n).map (·.kindName)
  entry {n : Nat} {e : Nat × Nat} : e ∈ g'.entries n → ∃ m, e ∈ g.entries m

variable {g g' : Graph}

theorem Derived.refl (g : Graph) : Derived g g where
  tag h := .inl h
  scalar h := h
  sequence h := h
  kind _ := rfl
  entry h := ⟨_, h⟩

theorem mapping_of_kind {n : Nat} {es : List (Nat × Nat)}
    (hkind : (g'.content? n).map (·.kindName) = (g.content? n).map (·.kindName))
    (hn : g'.content? n = some (.mapping es)) : ∃ own, g.content? n = some (.mapping own) := by
  rw [hn] at hkind
  cases hc : g.content? n with
  | none =>
    rw [hc] at hkind
    cases hkind
  | some c =>
    rw [hc] at hkind
    cases c with
    | mapping own => exact ⟨own, rfl⟩
    | scalar text => simp [Content.kindName] at hkind
    | sequence items => simp [Content.kindName] at hkind

theorem Derived.mapping (h : Derived g g') {n : Nat} {es : List (Nat × Nat)}
    (hn : g'.content? n = some (.mapping es)) : ∃ own, g.content? n = some (.mapping own) :=
  mapping_of_kind (h.kind n) hn

theorem Derived.tag_of_ne (h : Derived g g') {n : Nat} {t : Tag} (ht : g'.tag? n = some t)
    (hne : t ≠ .str) : g.tag? n = some t := by
  rcases h.tag ht with ht | ⟨-, hstr⟩
  · exact ht
  · exact absurd hstr hne

theorem content?_of_tag? {n : Nat} {t : Tag} (h : g.tag? n = some t) :
    ∃ c, g.content? n = some c := by
  unfold tag? at h
  unfold content?
  cases hn : g[n]? with
  | none =>
    rw [hn] at h
    cases h
  | some node => exact ⟨node.content, rfl⟩

theorem getElem?_setContent (g : Graph) (n : Nat) (c : Content) (m : Nat) :
    (g.setContent n c)[m]? = if n = m then g[m]?.map fun node => { node with content := c }
      else g[m]? :=
  Array.getElem?_modify

theorem getElem?_setTag (g : Graph) (n : Nat) (t : Tag) (m : Nat) :
    (g.setTag n t)[m]? = if n = m then g[m]?.map fun node => { node with tag := t } else g[m]? :=
  Array.getElem?_modify

theorem tag?_setContent (g : Graph) (n : Nat) (c : Content) (m : Nat) :
    (g.setContent n c).tag? m = g.tag? m := by
  unfold tag?
  rw [getElem?_setContent]
  split
  · cases g[m]? <;> rfl
  · rfl

theorem content?_setTag (g : Graph) (n : Nat) (t : Tag) (m : Nat) :
    (g.setTag n t).content? m = g.content? m := by
  unfold content?
  rw [getElem?_setTag]
  split
  · cases g[m]? <;> rfl
  · rfl

theorem entries_setTag (g : Graph) (n : Nat) (t : Tag) (m : Nat) :
    (g.setTag n t).entries m = g.entries m := by
  unfold entries
  rw [content?_setTag]

theorem content?_setContent_ne {n m : Nat} (c : Content) (h : n ≠ m) :
    (g.setContent n c).content? m = g.content? m := by
  unfold content?
  rw [getElem?_setContent, if_neg h]

theorem content?_setContent_self (g : Graph) (n : Nat) (c : Content) :
    (g.setContent n c).content? n = (g.content? n).map fun _ => c := by
  unfold content?
  rw [getElem?_setContent, if_pos rfl]
  cases g[n]? <;> rfl

theorem mem_entries_iff {n : Nat} {e : Nat × Nat} :
    e ∈ g.entries n ↔ ∃ es, g.content? n = some (.mapping es) ∧ e ∈ es := by
  unfold entries
  constructor
  · intro h
    split at h
    next es hes => exact ⟨es, hes, h⟩
    next => cases h
  · rintro ⟨es, hes, h⟩
    rw [hes]
    exact h

namespace Derived

theorem setStr (h : Derived g g') {k : Nat} (hk : g'.hasTag .value k = true) :
    Derived g (g'.setTag k .str) where
  tag {n t} ht := by
    have hvalue : g'.tag? k = some .value := by simpa [hasTag] using hk
    unfold tag? at ht
    rw [getElem?_setTag] at ht
    split at ht
    next heq =>
      subst heq
      have hstr : t = .str := by
        cases hn : g'[k]? with
        | none =>
          rw [hn] at ht
          cases ht
        | some node =>
          rw [hn] at ht
          cases ht
          rfl
      rcases h.tag hvalue with hv | ⟨hv, -⟩
      · exact .inr ⟨hv, hstr⟩
      · exact .inr ⟨hv, hstr⟩
    next => exact h.tag ht
  scalar hn := h.scalar (by rwa [content?_setTag] at hn)
  sequence hn := h.sequence (by rwa [content?_setTag] at hn)
  kind n := by
    rw [content?_setTag]
    exact h.kind n
  entry he := h.entry (by rwa [entries_setTag] at he)

theorem settleValueKeys (h : Derived g g') (keys : List Nat) :
    Derived g (g'.settleValueKeys keys) := by
  unfold Graph.settleValueKeys
  induction keys generalizing g' with
  | nil => exact h
  | cons k keys ih =>
    rw [List.foldl_cons]
    split
    next hk => exact ih (h.setStr hk)
    next => exact ih h

/-- A mapping may get entries that stand somewhere in the document. -/
theorem setMapping (h : Derived g g') {n : Nat} {own es : List (Nat × Nat)}
    (hn : g.content? n = some (.mapping own)) (hes : ∀ e ∈ es, ∃ m, e ∈ g.entries m) :
    Derived g (g'.setContent n (.mapping es)) := by
  have hself : (g'.setContent n (.mapping es)).content? n = some (.mapping es) := by
    have hkind := h.kind n
    rw [hn] at hkind
    rw [content?_setContent_self]
    cases hc : g'.content? n with
    | none =>
      rw [hc] at hkind
      cases hkind
    | some c => rfl
  constructor
  case tag =>
    intro m t ht
    exact h.tag (by rwa [tag?_setContent] at ht)
  case scalar =>
    intro m text hm
    by_cases heq : n = m
    · rw [← heq, hself] at hm
      cases hm
    · exact h.scalar (by rwa [content?_setContent_ne _ heq] at hm)
  case sequence =>
    intro m items hm
    by_cases heq : n = m
    · rw [← heq, hself] at hm
      cases hm
    · exact h.sequence (by rwa [content?_setContent_ne _ heq] at hm)
  case kind =>
    intro m
    by_cases heq : n = m
    · rw [← heq, hself, hn]
      rfl
    · rw [content?_setContent_ne _ heq]
      exact h.kind m
  case entry =>
    intro m e he
    obtain ⟨es', hm, he⟩ := mem_entries_iff.mp he
    by_cases heq : n = m
    · rw [← heq, hself] at hm
      cases hm
      exact hes e he
    · rw [content?_setContent_ne _ heq] at hm
      exact h.entry (mem_entries_iff.mpr ⟨es', hm, he⟩)

end Derived

/-! ## What every step of merging keeps -/

def Names (g : Graph) (value m : Nat) : Prop :=
  m = value ∨ ∃ items, g.content? value = some (.sequence items) ∧ m ∈ items

/-- Every step of merging keeps `P`, where `R node x` holds of the entries that come into `node`, and
`D k node` where `node` is rid of its merge keys `k` calls deep. -/
structure KeptByMerging (P : Graph → Prop) (R : Nat → Nat × Nat → Prop) (D : Nat → Nat → Prop) :
    Prop where
  settle {g : Graph} (keys : List Nat) : P g → P (g.settleValueKeys keys)
  erase {g : Graph} {node i : Nat} {e : Nat × Nat} : P g → (g.entries node)[i]? = some e →
    g.hasTag .merge e.1 = true → P (g.setContent node (.mapping ((g.entries node).eraseIdx i)))
  bring {g : Graph} {node : Nat} {brought : List (Nat × Nat)} : P g → brought ≠ [] →
    (∀ x ∈ brought, R node x) → P (g.setContent node (.mapping (brought ++ g.entries node)))
  named {g g₁ g₂ : Graph} {node m : Nat} {e x : Nat × Nat} : P g → e ∈ g.entries node →
    g.hasTag .merge e.1 = true → P g₁ → g₁.Names e.2 m → P g₂ → x ∈ g₂.entries m → R node x
  deeper {g g₁ : Graph} {k node m : Nat} {e : Nat × Nat} : P g → e ∈ g.entries node →
    g.hasTag .merge e.1 = true → P g₁ → g₁.Names e.2 m → D k node → D (k + 1) m

theorem content?_settleValueKeys (g : Graph) (keys : List Nat) (n : Nat) :
    (g.settleValueKeys keys).content? n = g.content? n := by
  unfold settleValueKeys
  induction keys generalizing g with
  | nil => rfl
  | cons k keys ih =>
    rw [List.foldl_cons, ih]
    split
    · exact content?_setTag g k .str n
    · rfl

theorem entries_settleValueKeys (g : Graph) (keys : List Nat) (n : Nat) :
    (g.settleValueKeys keys).entries n = g.entries n := by
  unfold entries
  rw [content?_settleValueKeys]

theorem hasTag_setStr {g : Graph} {k : Nat} (hk : g.hasTag .value k = true) (n : Nat) :
    (g.setTag k .str).hasTag .merge n = g.hasTag .merge n := by
  have hvalue : g.tag? k = some .value := by simpa [hasTag] using hk
  unfold hasTag tag?
  rw [getElem?_setTag]
  split
  next heq =>
    subst heq
    unfold tag? at hvalue
    rw [hvalue]
    cases g[k]? <;> rfl
  next => rfl

theorem hasTag_settleValueKeys (g : Graph) (keys : List Nat) (n : Nat) :
    (g.settleValueKeys keys).hasTag .merge n = g.hasTag .merge n := by
  unfold settleValueKeys
  induction keys generalizing g with
  | nil => rfl
  | cons k keys ih =>
    rw [List.foldl_cons, ih]
    split
    next hk => exact hasTag_setStr hk n
    next => rfl

/-- What comes behind the entries that satisfy a test from some place on does not satisfy it. -/
theorem getElem?_takeWhile_length {α : Type} {p : α → Bool} {xs : List α} {i : Nat} {x : α}
    (h : xs[i + ((xs.drop i).takeWhile p).length]? = some x) : p x = false := by
  rw [← List.getElem?_drop] at h
  generalize xs.drop i = ys at h
  induction ys with
  | nil => cases h
  | cons y ys ih =>
    cases hy : p y with
    | true =>
      rw [List.takeWhile_cons_of_pos hy] at h
      exact ih h
    | false =>
      rw [List.takeWhile_cons_of_neg (by simp [hy])] at h
      cases h
      exact hy

section Keeping
variable {P : Graph → Prop} {R : Nat → Nat × Nat → Prop} {D : Nat → Nat → Prop}

theorem broughtBy_keeps {F : Fault → Prop} {flatten : Nat → Graph → Except Flaw Graph} {value : Nat}
    {g : Graph} (hflatten : ∀ n g', g.Names value n → P g' → Yields F P (flatten n g')) (h : P g) :
    Yields F (fun p => P p.2 ∧ ∀ x ∈ p.1, ∃ m g', g.Names value m ∧ P g' ∧ x ∈ g'.entries m)
      (broughtBy flatten value g) := by
  unfold broughtBy
  extract_lets bring
  have hbring (sofar : List (Nat × Nat) × Graph) (n : Nat) (hn : g.Names value n)
      (hsofar : P sofar.2 ∧ ∀ x ∈ sofar.1, ∃ m g', g.Names value m ∧ P g' ∧ x ∈ g'.entries m) :
      Yields F (fun p => P p.2 ∧ ∀ x ∈ p.1, ∃ m g', g.Names value m ∧ P g' ∧ x ∈ g'.entries m)
        (bring sofar n) := by
    dsimp only [bring]
    split
    next =>
      refine (hflatten n _ hn hsofar.1).bind fun flat hflat => .ok ⟨hflat, fun x hx => ?_⟩
      rcases List.mem_append.mp hx with hx | hx
      · exact ⟨n, flat, hn, hflat, hx⟩
      · exact hsofar.2 x hx
    next => exact .malformed
  split
  next items hitems =>
    exact .foldlM items (fun sofar n hn => hbring sofar n (.inr ⟨items, hitems, hn⟩)) ⟨h, nofun⟩
  next => exact hbring _ value (.inl rfl) ⟨h, nofun⟩

abbrev Keeps (P : Graph → Prop) (D : Nat → Nat → Prop) (x : Except Flaw Graph) : Prop :=
  Yields (fun f => f = .tooDeep "" ∧ ∃ n, D callRoom n) P x

theorem flattenFrom_keeps (hP : KeptByMerging P R D) (fuel index : Nat) {k room node : Nat}
    {brought : List (Nat × Nat)} {g : Graph} (hroom : k + room = callRoom) (hdeep : D k node)
    (h : P g) (hbrought : ∀ x ∈ brought, R node x) :
    Keeps P D (flattenFrom fuel room index brought node g) := by
  induction fuel generalizing k room index node brought g with
  | zero => exact .malformed
  | succ fuel ih =>
    cases room with
    | zero =>
      rw [Nat.add_zero] at hroom
      exact .fault ⟨rfl, node, hroom ▸ hdeep⟩
    | succ room =>
      rw [flattenFrom]
      have hbehind {e : Nat × Nat} : (g.entries node)[index + (((g.entries node).drop index).takeWhile
          fun e => !g.hasTag .merge e.1).length]? = some e → (!g.hasTag .merge e.1) = false :=
        getElem?_takeWhile_length
      generalize ((g.entries node).drop index).takeWhile (fun e => !g.hasTag .merge e.1)
        = own at hbehind ⊢
      have hsettled := hP.settle (own.map (·.1)) h
      have hmerge {e : Nat × Nat}
          (he : ((g.settleValueKeys (own.map (·.1))).entries node)[index + own.length]? = some e) :
          (g.settleValueKeys (own.map (·.1))).hasTag .merge e.1 = true := by
        rw [entries_settleValueKeys] at he
        rw [hasTag_settleValueKeys]
        simpa using hbehind he
      generalize g.settleValueKeys (own.map (·.1)) = settled at hsettled hmerge ⊢
      dsimp only
      split
      next =>
        refine .ok ?_
        cases brought with
        | nil => exact hsettled
        | cons x brought => exact hP.bring hsettled (List.cons_ne_nil x brought) hbrought
      next key value hkey =>
        have herased := hP.erase hsettled hkey (hmerge hkey)
        have hmem := List.mem_of_getElem? hkey
        have hflatten (n : Nat) (g' : Graph)
            (hn : (settled.setContent node (.mapping
              ((settled.entries node).eraseIdx (index + own.length)))).Names value n)
            (hg' : P g') : Keeps P D (flattenFrom fuel room 0 [] n g') := by
          have hdeeper := hP.deeper hsettled hmem (hmerge hkey) herased hn hdeep
          exact ih 0 (by omega) hdeeper hg' (nofun : ∀ x ∈ [], R n x)
        have hmore := broughtBy_keeps hflatten herased
        refine hmore.bind fun ⟨more, flat⟩ ⟨hflat, hnamed⟩ =>
          ih _ hroom hdeep hflat fun x hx => ?_
        rcases List.mem_append.mp hx with hx | hx
        · exact hbrought x hx
        · obtain ⟨m, g', hm, hg', hx⟩ := hnamed x hx
          exact hP.named hsettled hmem (hmerge hkey) herased hm hg' hx

theorem flatten_keeps (hP : KeptByMerging P R D) {g : Graph} {node : Nat} (hdeep : D 0 node)
    (h : P g) : Keeps P D (g.flatten node) :=
  flattenFrom_keeps hP _ 0 (Nat.zero_add _) hdeep h nofun

end Keeping

/-- Into mappings of the document come entries of the document. -/
theorem derived_kept (g : Graph) :
    KeptByMerging (Derived g)
      (fun node x => (∃ own, g.content? node = some (.mapping own)) ∧ ∃ m, x ∈ g.entries m)
      fun _ _ => True where
  settle keys h := h.settleValueKeys keys
  erase h he _ := by
    obtain ⟨es, hes, -⟩ := mem_entries_iff.mp (List.mem_of_getElem? he)
    obtain ⟨own, hown⟩ := h.mapping hes
    exact h.setMapping hown fun x hx => h.entry (List.mem_of_mem_eraseIdx hx)
  bring h hne hbrought := by
    obtain ⟨x, hx⟩ := List.exists_mem_of_ne_nil _ hne
    obtain ⟨own, hown⟩ := (hbrought x hx).1
    refine h.setMapping hown fun y hy => ?_
    rcases List.mem_append.mp hy with hy | hy
    · exact (hbrought y hy).2
    · exact h.entry hy
  named h he _ _ _ h₂ hx := by
    obtain ⟨es, hes, -⟩ := mem_entries_iff.mp he
    exact ⟨h.mapping hes, h₂.entry hx⟩
  deeper _ _ _ _ _ _ := trivial

end PenPlotter.Yaml.Graph
