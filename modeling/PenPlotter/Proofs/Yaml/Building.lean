import PenPlotter.Proofs.Yaml.Values
/-! # Building meets no other faults

Every step of building a document's collections keeps what is known of them: the graph is the document's
after some merging, and what is built of a node has the kind of the node's tag. So whatever fault
building ends with, a part of the document is to blame for it.
-/
namespace PenPlotter.Yaml
open Text

variable {α β : Type} {g : Graph} {K : Nat → String → Prop} {b : Builder}

namespace Builder

def kind? (b : Builder) (c : Nat) : Option String := b.collections[c]?.map (·.kindName)

inductive Makes (g : Graph) (b : Builder) (n : Nat) : Part → Prop
  | scalar {v : Value} (h : g.Tells n v) : Makes g b n (.scalar v)
  | collection {c : Nat} {tag : Tag} {kind : String} (htag : g.tag? n = some tag)
      (hname : tag.containerName? = some kind) (hkind : b.kind? c = some kind) :
      Makes g b n (.collection c)

/-- What is known while building. `K` are collections whose kinds are to stay. -/
structure Sound (g : Graph) (K : Nat → String → Prop) (b : Builder) : Prop where
  merged : g.Merged b.graph
  built {n : Nat} {p : Part} : b.progress[n]? = some (.built p) → Makes g b n p
  kinds {c : Nat} {kind : String} : K c kind → b.kind? c = some kind

theorem Makes.mono {b' : Builder} {n : Nat} {p : Part} (hp : Makes g b n p)
    (hkinds : ∀ {c kind}, b.kind? c = some kind → b'.kind? c = some kind) : Makes g b' n p := by
  cases hp with
  | scalar h => exact .scalar h
  | collection htag hname hkind => exact .collection htag hname (hkinds hkind)

namespace Sound

theorem mono {cs : Array Collection} {waiting : List (Nat × Nat)} (h : Sound g K b)
    (hkinds : ∀ {c kind}, b.kind? c = some kind →
      kind? { b with collections := cs, waiting := waiting } c = some kind) :
    Sound g K { b with collections := cs, waiting := waiting } where
  merged := h.merged
  built hp := (h.built hp).mono hkinds
  kinds hc := hkinds (h.kinds hc)

theorem weaken {K' : Nat → String → Prop} (h : Sound g K' b) (hK : ∀ c kind, K c kind → K' c kind) :
    Sound g K b :=
  ⟨h.merged, h.built, fun hc => h.kinds (hK _ _ hc)⟩

theorem setProgress (h : Sound g K b) {n : Nat} {p : Progress}
    (hp : ∀ {part}, p = .built part → Makes g b n part) :
    Sound g K { b with progress := b.progress.setIfInBounds n p } where
  merged := h.merged
  built {m part} hm := by
    have hmakes : Makes g b m part := by
      rw [Array.getElem?_setIfInBounds] at hm
      split at hm
      next heq =>
        split at hm
        · cases hm
          exact heq ▸ hp rfl
        · cases hm
      next => exact h.built hm
    exact hmakes.mono id
  kinds := h.kinds

theorem setGraph (h : Sound g K b) {g' : Graph} (hg : g.Merged g') :
    Sound g K { b with graph := g' } where
  merged := hg
  built hp := (h.built hp).mono id
  kinds := h.kinds

end Sound

theorem kind?_push (c : Collection) {n : Nat} {kind : String} (h : b.kind? n = some kind) :
    kind? { b with collections := b.collections.push c } n = some kind := by
  unfold kind? at h ⊢
  rw [Array.getElem?_push]
  split
  next heq =>
    rw [heq, Array.getElem?_eq_none (Nat.le_refl _)] at h
    cases h
  next => exact h

/-- What a step of building yields: what is known still holds, and a fault is one of the document. -/
abbrev Builds (g : Graph) (K : Nat → String → Prop) (Q : α → Builder → Prop)
    (r : Except Flaw (α × Builder)) : Prop :=
  Yields g.Blames (fun p => Sound g K p.2 ∧ Q p.1 p.2) r

variable {Q : α → Builder → Prop} {R : β → Builder → Prop}

theorem bind_builds {x : Building α} {f : α → Building β} (hx : Builds g K Q (x b))
    (hf : ∀ a b', Sound g K b' → Q a b' → Builds g K R (f a b')) :
    Builds g K R ((x >>= f) b) :=
  hx.bind fun p hp => hf p.1 p.2 hp.1 hp.2

/-- After a step that is known to end well. -/
theorem after_yields {P : Fault → Prop} {S : β × Builder → Prop} {x : Building α}
    {f : α → Building β} {a : α} {b' : Builder} (hx : x b = .ok (a, b')) (hf : Yields P S (f a b')) :
    Yields P S ((x >>= f) b) := by
  change Yields P S (x b >>= fun p => f p.1 p.2)
  rw [hx]
  exact hf

theorem after_builds {x : Building α} {f : α → Building β} {a : α} {b' : Builder}
    (hx : x b = .ok (a, b')) (hf : Builds g K R (f a b')) : Builds g K R ((x >>= f) b) :=
  after_yields hx hf

theorem lift_builds {x : Except Flaw α} {P : α → Prop} (h : Sound g K b)
    (hx : Yields g.Blames P x) : Builds g K (fun a _ => P a) ((liftM x : Building α) b) :=
  hx.bind fun _ ha => .ok ⟨h, ha⟩

theorem mapM_builds {f : α → Building β}
    (hf : ∀ a b, Sound g K b → Builds g K (fun _ _ => True) (f a b)) (as : List α)
    (h : Sound g K b) : Builds g K (fun _ _ => True) (as.mapM f b) := by
  induction as generalizing b with
  | nil => exact .ok ⟨h, trivial⟩
  | cons a as ih =>
    rw [List.mapM_cons]
    exact bind_builds (hf a b h) fun c b' h' _ => bind_builds (ih h') fun cs b'' h'' _ =>
      .ok ⟨h'', trivial⟩

theorem forM_builds {f : α → Building Unit}
    (hf : ∀ a b, Sound g K b → Builds g K (fun _ _ => True) (f a b)) (as : List α)
    (h : Sound g K b) : Builds g K (fun _ _ => True) (as.forM f b) := by
  induction as generalizing b with
  | nil => exact .ok ⟨h, trivial⟩
  | cons a as ih => exact bind_builds (hf a b h) fun _ b' h' _ => ih h'

theorem add_builds (h : Sound g K b) (c : Collection) :
    Builds g K (fun n b' => b'.kind? n = some c.kindName) (add c b) := by
  refine .ok ⟨h.mono (kind?_push c), ?_⟩
  unfold kind?
  dsimp only
  rw [Array.getElem?_push_size]
  rfl

/-- The collection of a node, where its kind is the one of the node's tag. -/
theorem addEmpty_builds (h : Sound g K b) {n : Nat} {tag : Tag} {empty : Collection}
    (htag : g.tag? n = some tag) (hname : tag.containerName? = some empty.kindName) :
    Builds g K (fun p b' => Makes g b' n p) (addEmpty n empty b) :=
  bind_builds (add_builds h empty) fun _ _ h' hkind =>
    .ok ⟨h'.mono id, .collection htag hname hkind⟩

theorem finish_builds (h : Sound g K b) {n : Nat} {p : Part} (hp : Makes g b n p) :
    Builds g K (fun p b' => Makes g b' n p)
      ((do
        setProgress n (.built p)
        return p : Building Part) b) :=
  .ok ⟨h.setProgress (fun heq => by cases heq; exact hp), hp.mono id⟩

/-! ## Mappings and nodes -/

theorem duplicate_yields {m : Nat} {e : Nat × Nat} {key : Value} (he : e ∈ g.entries m)
    (hkey : g.Tells e.1 key) (mark : Mark) {Q : α → Prop} :
    Yields g.Blames Q (.error (duplicate key mark)) := by
  have hshown := key.textCodes_shownIf
  unfold duplicate
  rcases hkey with hshowable | ⟨hfits, hlong⟩
  · obtain ⟨text, htext⟩ := hshown.toldIf.exists_ok hshowable
    rw [htext]
    exact .duplicate
  · rw [hfits] at hshown
    generalize key.textCodes = shown at hshown ⊢
    generalize key.writable = w at hshown
    cases hshown with
    | ok text => exact .duplicate
    | digits => exact .fault (.longKey he hlong)

section Parts
variable {build : Nat → Building Part} {n : Nat}
  (hbuild : ∀ {e m b}, g.Has n e → m = e.1 ∨ m = e.2 → Sound g K b →
    Builds g K (fun p b' => Makes g b' m p) (build m b))
include hbuild

theorem entries_builds (es : List (Nat × Nat)) (hes : ∀ e ∈ es, g.Has n e)
    (sofar : List (Value × Part)) (h : Sound g K b) :
    Builds g K (fun _ _ => True) (entries build es sofar b) := by
  induction es generalizing sofar b with
  | nil => exact .ok ⟨h, trivial⟩
  | cons e es ih =>
    rcases e with ⟨k, v⟩
    have he : g.Has n (k, v) := hes (k, v) List.mem_cons_self
    obtain ⟨m, hm⟩ := he.exists_entry
    rw [entries]
    refine bind_builds (hbuild he (.inl rfl) h) fun p b' h' hp => ?_
    cases hp with
    | @collection c tag kind htag hname hkind =>
      refine .fault ?_
      have hname' : (b'.collections[c]?.map (·.kindName)).getD "" = kind := by
        rw [show b'.collections[c]?.map (·.kindName) = some kind from hkind]
        rfl
      rw [hname']
      exact .key hm htag hname
    | @scalar key hkey =>
      refine after_builds rfl ?_
      dsimp only
      split
      · exact duplicate_yields hm hkey _
      · refine bind_builds (hbuild he (.inr rfl) h') fun value b'' h'' _ => ?_
        exact ih (fun e he => hes e (List.mem_cons_of_mem _ he)) _ h''

theorem mapping_builds (htag : g.tag? n = some .map) (h : Sound g K b) :
    Builds g K (fun p b' => Makes g b' n p) (mapping build n b) := by
  have hadd (es : List (Value × Part)) {b : Builder} (h : Sound g K b) :
      Builds g K (fun p b' => Makes g b' n p)
        ((do return .collection (← add (.map es)) : Building Part) b) :=
    bind_builds (add_builds h (.map es)) fun _ _ h' hkind =>
      .ok ⟨h', .collection htag rfl hkind⟩
  unfold mapping
  refine after_builds rfl ?_
  rcases hn : b.graph.content? n with _ | ⟨text⟩ | ⟨items⟩ | ⟨es⟩
  · obtain ⟨c, hc⟩ := Graph.content?_of_tag? htag
    have hkind := h.merged.kind n
    rw [hn, hc] at hkind
    cases hkind
  · cases text with
    | nil => exact hadd [] h
    | cons c text => exact .fault (.scalar htag (h.merged.scalar hn))
  · cases items with
    | nil => exact hadd [] h
    | cons m items =>
      have hsequence := Graph.Blames.sequence htag (h.merged.sequence hn)
      rw [← h.merged.kind m] at hsequence
      exact .fault hsequence
  · have hes : ∀ e ∈ es, g.Has n e := fun e he =>
      h.merged.has (Graph.mem_entries_iff.mpr ⟨es, hn, he⟩)
    exact bind_builds (entries_builds hbuild es hes [] h) fun es _ h' _ => hadd es h'

end Parts

theorem build_builds {levels k n : Nat} (hroom : k + 2 * levels = callRoom) (hcalls : g.Calls k n)
    (h : Sound g K b) : Builds g K (fun p b' => Makes g b' n p) (build levels n b) := by
  induction levels generalizing k n b with
  | zero =>
    rw [Nat.mul_zero, Nat.add_zero] at hroom
    exact .fault (.deep (hroom ▸ hcalls))
  | succ levels ih =>
    rw [build]
    refine after_builds rfl (after_builds rfl ?_)
    cases hprogress : b.progress[n]? with
    | none => exact .malformed
    | some progress =>
      cases progress with
      | begun => exact .malformed
      | built p => exact .ok ⟨h, h.built hprogress⟩
      | untouched =>
        cases htag : b.graph.tag? n with
        | none => exact .malformed
        | some tag =>
          have hbegun : Sound g K { b with progress := b.progress.setIfInBounds n .begun } :=
            h.setProgress (fun hp => nomatch hp)
          have hown (hne : tag ≠ .str) : g.tag? n = some tag := h.merged.tag_of_ne htag hne
          have hempty {empty : Collection} (hne : tag ≠ .str)
              (hname : tag.containerName? = some empty.kindName) :=
            bind_builds (addEmpty_builds hbegun (hown hne) hname) fun _ _ h' hp =>
              finish_builds h' hp
          refine after_builds rfl ?_
          cases tag with
          | seq => exact hempty (by decide) rfl
          | omap => exact hempty (by decide) rfl
          | pairs => exact hempty (by decide) rfl
          | set => exact hempty (by decide) rfl
          | map =>
            have hmapping := mapping_builds
              (fun he hm h => ih (by omega) (hcalls.entry he hm) h) (hown (by decide)) hbegun
            exact bind_builds hmapping fun _ _ h' hp => finish_builds h' hp
          | _ =>
            have hscalar := lift_builds hbegun (Graph.scalar_yields h.merged hroom hcalls htag)
            exact bind_builds hscalar fun v b' h' hv =>
              after_builds rfl (finish_builds h' (.scalar hv))

/-! ## What waits -/

theorem buildNode_builds (n : Nat) (h : Sound g K b) :
    Builds g K (fun p b' => Makes g b' n p) (buildNode n b) :=
  build_builds (Nat.zero_add _) (.start n) h

theorem pairOf_builds (n : Nat) (h : Sound g K b) :
    Builds g K (fun _ _ => True) (pairOf n b) := by
  have hentry : Yields g.Blames (fun _ => True) (b.graph.onlyEntry n) := by
    unfold Graph.onlyEntry
    split
    · exact .ok trivial
    · exact .malformed
  refine after_builds rfl (bind_builds (lift_builds h hentry) fun e b' h' _ => ?_)
  exact bind_builds (buildNode_builds e.1 h') fun k b' h' _ =>
    bind_builds (buildNode_builds e.2 h') fun v b' h' _ => .ok ⟨h', trivial⟩

theorem members_builds (es : List (Nat × Nat)) (sofar : List Value) (h : Sound g K b) :
    Builds g K (fun _ _ => True) (members es sofar b) := by
  induction es generalizing sofar b with
  | nil => exact .ok ⟨h, trivial⟩
  | cons e es ih =>
    rw [members]
    refine bind_builds (buildNode_builds e.1 h) fun p b' h' _ => ?_
    cases p with
    | scalar key =>
      exact after_builds rfl (bind_builds (buildNode_builds e.2 h') fun _ b' h' _ => ih _ h')
    | collection c => exact after_builds rfl .malformed

/-- What fills a collection is one of the same kind. -/
theorem filling_builds (n : Nat) (empty : Collection) (h : Sound g K b) :
    Builds g K (fun c _ => c.kindName = empty.kindName) (filling n empty b) := by
  unfold filling
  refine after_builds rfl ?_
  rcases hn : b.graph.content? n with _ | ⟨text⟩ | ⟨items⟩ | ⟨es⟩
  · cases empty <;> exact .malformed
  · cases empty <;> exact .malformed
  · cases empty with
    | list =>
      have hitems := mapM_builds (fun n _ h => (buildNode_builds n h).imp fun _ hp => ⟨hp.1, trivial⟩) items h
      exact bind_builds hitems fun _ _ h' _ => .ok ⟨h', rfl⟩
    | pairs =>
      have hitems := mapM_builds (fun n _ h => pairOf_builds n h) items h
      exact bind_builds hitems fun _ _ h' _ => .ok ⟨h', rfl⟩
    | set => exact .malformed
    | map => exact .malformed
  · cases empty with
    | set =>
      have hflat : Yields g.Blames g.Merged (b.graph.flatten n) :=
        (h.merged.flatten n).mono fun f ⟨hf, m, hm⟩ => hf ▸ .deep hm
      refine after_builds rfl (bind_builds (lift_builds h hflat) fun flat b' h' hd => ?_)
      refine after_builds rfl ?_
      exact bind_builds (members_builds _ [] (h'.setGraph hd)) fun _ _ h' _ => .ok ⟨h', rfl⟩
    | list => exact .malformed
    | pairs => exact .malformed
    | map => exact .malformed

theorem fill_builds (task : Nat × Nat) (h : Sound g K b) :
    Builds g K (fun _ _ => True) (fill task b) := by
  unfold fill
  refine after_builds rfl ?_
  cases hempty : b.collections[task.2]? with
  | none => exact .ok ⟨h, trivial⟩
  | some empty =>
    -- While the node is filled, the kind of the collection that it fills stays too.
    have hkept : Sound g (fun c kind => K c kind ∨ c = task.2 ∧ kind = empty.kindName) b := by
      refine ⟨h.merged, h.built, fun {c kind} hc => ?_⟩
      rcases hc with hc | ⟨rfl, rfl⟩
      · exact h.kinds hc
      · exact congrArg (Option.map (·.kindName)) hempty
    refine (filling_builds task.1 empty hkept).bind fun ⟨c, b'⟩ ⟨h', hname⟩ => ?_
    have hkinds {n : Nat} {kind : String} (hn : b'.kind? n = some kind) :
        kind? { b' with collections := b'.collections.setIfInBounds task.2 c } n = some kind := by
      unfold kind? at hn ⊢
      rw [Array.getElem?_setIfInBounds]
      split
      next heq =>
        subst heq
        have hsame : b'.kind? task.2 = some empty.kindName := h'.kinds (.inr ⟨rfl, rfl⟩)
        have hkind : some empty.kindName = some kind := hsame.symm.trans hn
        split
        · exact (congrArg some hname).trans hkind
        next hbound =>
          rw [Array.getElem?_eq_none (by omega)] at hn
          cases hn
      next => exact hn
    exact .ok ⟨(h'.weaken fun _ _ => .inl).mono hkinds, trivial⟩

theorem settle_builds (rounds : Nat) (h : Sound g K b) :
    Builds g K (fun _ _ => True) (settle rounds b) := by
  induction rounds generalizing b with
  | zero => exact .ok ⟨h, trivial⟩
  | succ rounds ih =>
    rw [settle]
    refine after_builds rfl ?_
    by_cases hnone : b.waiting.reverse.isEmpty = true
    · rw [if_pos hnone]
      exact .ok ⟨h, trivial⟩
    · rw [if_neg hnone]
      have hempty : Sound g K { b with waiting := [] } := h.mono id
      refine after_builds rfl ?_
      have hfill := forM_builds (fun task _ h => fill_builds task h) b.waiting.reverse hempty
      exact bind_builds hfill fun _ b' h' _ => ih h'

theorem work_builds (root rounds : Nat) (h : Sound g K b) :
    Builds g K (fun _ _ => True)
      ((do
        let p ← buildNode root
        settle rounds
        return p : Building Part) b) :=
  bind_builds (buildNode_builds root h) fun _ _ h' _ =>
    bind_builds (settle_builds rounds h') fun _ _ h'' _ => .ok ⟨h'', trivial⟩

end Builder

/-- Where a document has no value because of a fault, a part of it is to blame. -/
theorem Graph.value_fault {root : Nat} {f : Fault} (h : g.value root = .error (.fault f)) :
    g.Blames f := by
  have hstart : Builder.Sound g (fun _ _ => False)
      { graph := g, progress := Array.replicate g.size .untouched } := by
    refine ⟨.refl g, fun {n p} hp => ?_, fun hc => hc.elim⟩
    rw [Array.getElem?_replicate] at hp
    split at hp
    · cases hp
    · cases hp
  have hvalue : Yields g.Blames (fun _ => True) (g.value root) :=
    (Builder.work_builds root (g.size + 1) hstart).bind fun _ _ => .ok trivial
  exact hvalue.reason h

end PenPlotter.Yaml
