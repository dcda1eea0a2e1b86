import Mathlib.Data.List.Forall2
import PenPlotter.Proofs.Yaml.Brought
import PenPlotter.Proofs.Yaml.Building
import PenPlotter.Proofs.Yaml.Unfolding
/-! # Mappings keep their entries

A mapping is built of the pairs of nodes that it has at that time, one entry for each pair, and no key
is the same as an earlier one. What is built so stays: nothing but the collections that waited is filled
later, and merging changes no mapping all of whose keys have been built.
-/
namespace PenPlotter.Yaml.Builder

variable {α β : Type} {g : Graph} {b b' : Builder} {n : Nat} {p : Part}

/-- The key and the value of an entry are what the nodes of a pair have been built into. -/
def Holds (b : Builder) (pair : Nat × Nat) (entry : Value × Part) : Prop :=
  b.progress[pair.1]? = some (.built (.scalar entry.1)) ∧
    b.progress[pair.2]? = some (.built entry.2)

/-- No key is the same as one in front of it. -/
def KeysApart (entries : List (Value × Part)) : Prop :=
  entries.Pairwise fun earlier later => later.1.same earlier.1 = false

/-- What is known of a built node: it is no merge key, and if it is a mapping then its collection has an
entry for each of its pairs. -/
structure Proper (b : Builder) (n : Nat) (p : Part) : Prop where
  unmerged : b.graph.hasTag .merge n = false
  bound {c : Nat} : p = .collection c → c < b.collections.size
  pairs {c : Nat} {pairs : List (Nat × Nat)} {entries : List (Value × Part)} :
    p = .collection c → b.collections[c]? = some (.map entries) →
    b.graph.content? n = some (.mapping pairs) →
    List.Forall₂ b.Holds pairs entries ∧ KeysApart entries

structure Kept (g : Graph) (b : Builder) : Prop where
  merged : g.Merged b.graph
  closed : Closed b.collections
  proper {n : Nat} {p : Part} : b.progress[n]? = some (.built p) → Proper b n p

structure Extends (b b' : Builder) : Prop where
  graph : b'.graph = b.graph
  collections {c : Nat} : c < b.collections.size → b'.collections[c]? = b.collections[c]?
  built {n : Nat} {p : Part} : b.progress[n]? = some (.built p) → b'.progress[n]? = some (.built p)

theorem Extends.refl (b : Builder) : Extends b b := ⟨rfl, fun _ => rfl, id⟩

theorem Extends.size (h : Extends b b') {c : Nat} (hc : c < b.collections.size) :
    c < b'.collections.size := by
  have hsame := h.collections hc
  rw [Array.getElem?_eq_getElem hc] at hsame
  exact (Array.getElem?_eq_some_iff.mp hsame).1

theorem Extends.trans {b'' : Builder} (h : Extends b b') (h' : Extends b' b'') : Extends b b'' where
  graph := h'.graph.trans h.graph
  collections hc := (h'.collections (h.size hc)).trans (h.collections hc)
  built hp := h'.built (h.built hp)

theorem Proper.mono (h : Proper b n p) (hext : Extends b b') : Proper b' n p where
  unmerged := by
    rw [hext.graph]
    exact h.unmerged
  bound hp := hext.size (h.bound hp)
  pairs hp hc hn := by
    rw [hext.collections (h.bound hp)] at hc
    rw [hext.graph] at hn
    obtain ⟨hholds, hapart⟩ := h.pairs hp hc hn
    exact ⟨hholds.imp fun _ _ hentry => ⟨hext.built hentry.1, hext.built hentry.2⟩, hapart⟩

/-- Between two states nothing is lost and no node is given up. -/
structure Grows (b b' : Builder) : Prop extends Extends b b' where
  begun {n : Nat} : b.progress[n]? = some .begun → b'.progress[n]? = some .begun

theorem Grows.refl (b : Builder) : Grows b b := ⟨.refl b, id⟩

theorem Grows.trans {b'' : Builder} (h : Grows b b') (h' : Grows b' b'') : Grows b b'' :=
  ⟨h.toExtends.trans h'.toExtends, fun hn => h'.begun (h.begun hn)⟩

theorem Proper.within (h : Proper b n p) : p.Within b.collections.size := by
  cases p with
  | scalar v => exact trivial
  | collection c => exact h.bound rfl

theorem Kept.grow (h : Kept g b) (hext : Extends b b') (hclosed : Closed b'.collections)
    (hproper : ∀ {n p}, b'.progress[n]? = some (.built p) →
      b.progress[n]? = some (.built p) ∨ Proper b' n p) : Kept g b' where
  merged := by
    rw [hext.graph]
    exact h.merged
  closed := hclosed
  proper hp := by
    rcases hproper hp with hp | hp
    · exact (h.proper hp).mono hext
    · exact hp

abbrev Ends (Q : α → Builder → Prop) (r : Except Flaw (α × Builder)) : Prop :=
  Yields (fun _ => True) (fun p => Q p.1 p.2) r

/-! ## The parts of a step -/

theorem progress_set (progress : Array Progress) {n : Nat} {old : Progress}
    (hn : progress[n]? = some old) (new : Progress) (m : Nat) :
    (progress.setIfInBounds n new)[m]? = if n = m then some new else progress[m]? := by
  obtain ⟨hbound, -⟩ := Array.getElem?_eq_some_iff.mp hn
  rw [Array.getElem?_setIfInBounds]
  split
  · rfl
  · rfl

/-- A node in another state is not the one that is set. -/
theorem progress_set_of_ne {progress : Array Progress} {n m : Nat} {old state : Progress}
    (hn : progress[n]? = some old) (hm : progress[m]? = some state) (hne : old ≠ state)
    (new : Progress) : (progress.setIfInBounds n new)[m]? = some state := by
  rw [progress_set _ hn, if_neg]
  · exact hm
  · rintro rfl
    exact hne (Option.some.inj (hn.symm.trans hm))

/-- A node may begin that is untouched. -/
theorem Grows.begin (hn : b.progress[n]? = some .untouched) :
    Grows b { b with progress := b.progress.setIfInBounds n .begun } := by
  exact ⟨⟨rfl, fun _ => rfl, fun hm => progress_set_of_ne hn hm nofun .begun⟩,
    fun hm => progress_set_of_ne hn hm nofun .begun⟩

theorem Kept.begin (h : Kept g b) (hn : b.progress[n]? = some .untouched) :
    Kept g { b with progress := b.progress.setIfInBounds n .begun } := by
  refine h.grow (Grows.begin hn).toExtends h.closed fun {m p} hm => .inl ?_
  dsimp only at hm
  rw [progress_set _ hn] at hm
  split at hm
  · cases hm
  · exact hm

/-- A collection that comes in addition. -/
theorem Grows.add (b : Builder) (c : Collection) (waiting : List (Nat × Nat)) :
    Grows b { b with collections := b.collections.push c, waiting := waiting } where
  graph := rfl
  collections hc := by
    dsimp only
    rw [Array.getElem?_push_lt hc, Array.getElem?_eq_getElem hc]
  built := id
  begun := id

theorem Kept.add (h : Kept g b) {c : Collection} (hc : ∀ p ∈ c.parts, p.Within b.collections.size)
    (waiting : List (Nat × Nat)) :
    Kept g { b with collections := b.collections.push c, waiting := waiting } :=
  h.grow (Grows.add b c waiting).toExtends (Closed.push h.closed hc) fun hp => .inl hp

theorem Extends.finish (hn : b.progress[n]? = some .begun) (p : Part) :
    Extends b { b with progress := b.progress.setIfInBounds n (.built p) } :=
  ⟨rfl, fun _ => rfl, fun hm => progress_set_of_ne hn hm nofun (.built p)⟩

/-- A begun node is built once what is known of built nodes holds of it. -/
theorem Kept.finish (h : Kept g b) (hn : b.progress[n]? = some .begun) (hp : Proper b n p) :
    Kept g { b with progress := b.progress.setIfInBounds n (.built p) } := by
  refine h.grow (.finish hn p) h.closed fun {m q} hm => ?_
  dsimp only at hm
  rw [progress_set _ hn] at hm
  split at hm
  next heq =>
    cases hm
    exact .inr (heq ▸ hp.mono (.finish hn p))
  next => exact .inl hm

/-- The values of held entries are collections that are there. -/
theorem Kept.held_within (h : Kept g b) {pairs : List (Nat × Nat)} {entries : List (Value × Part)}
    (hholds : List.Forall₂ b.Holds pairs entries) :
    ∀ p ∈ (Collection.map entries).parts, p.Within b.collections.size := by
  induction hholds with
  | nil => nofun
  | cons hentry _ ih => exact List.forall_mem_cons.mpr ⟨(h.proper hentry.2).within, ih⟩

/-! ## Nodes -/

def Done (g : Graph) (b : Builder) (n : Nat) (p : Part) (b' : Builder) : Prop :=
  Kept g b' ∧ Grows b b' ∧ b'.progress[n]? = some (.built p)

def Ready (g : Graph) (b : Builder) (n : Nat) (p : Part) (b' : Builder) : Prop :=
  Kept g b' ∧ Grows b b' ∧ Proper b' n p

theorem addEmpty_ready (h : Kept g b) (hmerge : b.graph.hasTag .merge n = false)
    {empty : Collection} (hparts : empty.parts = [])
    (hempty : ∀ entries, empty ≠ .map entries) : Ends (Ready g b n) (addEmpty n empty b) := by
  refine .ok ⟨h.add (by simp [hparts]) _, Grows.add _ _ _, hmerge, ?_, ?_⟩
  · rintro c hc
    cases hc
    exact (Array.size_push _).symm ▸ Nat.lt_succ_self _
  · intro c pairs entries hc hentries
    cases hc
    dsimp only at hentries
    rw [Array.getElem?_push_size] at hentries
    cases hentries
    exact absurd rfl (hempty entries)

theorem scalar_ready (h : Kept g b) (hmerge : b.graph.hasTag .merge n = false)
    (x : Except Flaw Value) :
    Ends (fun v b' => Ready g b n (.scalar v) b') ((liftM x : Building Value) b) := by
  cases x with
  | error e => exact .error e
  | ok v => exact .ok ⟨h, .refl b, hmerge, nofun, nofun⟩

section Parts
variable {build : Nat → Building Part}
  (hbuild : ∀ n b, Kept g b → Ends (Done g b n) (build n b))
include hbuild

/-- The entries so far belong to the pairs of `before`. -/
theorem entries_ends (pairs before : List (Nat × Nat)) (sofar : List (Value × Part)) (h : Kept g b)
    (hholds : List.Forall₂ b.Holds before sofar.reverse) (hapart : KeysApart sofar.reverse) :
    Ends (fun entries b' => Kept g b' ∧ Grows b b' ∧
      List.Forall₂ b'.Holds (before ++ pairs) entries ∧ KeysApart entries)
      (entries build pairs sofar b) := by
  induction pairs generalizing before sofar b with
  | nil => exact .ok ⟨h, .refl b, by rwa [List.append_nil], hapart⟩
  | cons pair pairs ih =>
    rcases pair with ⟨k, v⟩
    rw [entries]
    refine (hbuild k b h).bind ?_
    rintro ⟨kp, b₁⟩ ⟨h₁, hgrows₁, hk⟩
    cases kp with
    | collection c => exact after_yields rfl (.error _)
    | scalar key =>
      refine after_yields rfl ?_
      dsimp only
      split
      next => exact .error _
      next hnew =>
        refine (hbuild v b₁ h₁).bind ?_
        rintro ⟨value, b₂⟩ ⟨h₂, hgrows₂, hv⟩
        have hgrows := hgrows₁.trans hgrows₂
        have hholds₂ : List.Forall₂ b₂.Holds (before ++ [(k, v)]) ((key, value) :: sofar).reverse := by
          rw [List.reverse_cons]
          refine List.rel_append (hholds.imp fun _ _ he => ⟨hgrows.built he.1, hgrows.built he.2⟩) ?_
          exact .cons ⟨hgrows₂.built hk, hv⟩ .nil
        have hapart₂ : KeysApart ((key, value) :: sofar).reverse := by
          unfold KeysApart at hapart ⊢
          rw [List.reverse_cons, List.pairwise_append]
          refine ⟨hapart, List.pairwise_singleton _ _, fun e he e' he' => ?_⟩
          rw [List.mem_singleton.mp he']
          have hany := List.any_eq_false.mp (Bool.not_eq_true _ ▸ hnew) e (List.mem_reverse.mp he)
          simpa using hany
        refine (ih (before ++ [(k, v)]) _ h₂ hholds₂ hapart₂).imp fun r hr => ?_
        rw [List.append_assoc] at hr
        exact ⟨hr.1, hgrows.trans hr.2.1, hr.2.2⟩

theorem mapping_ready (h : Kept g b) (hmerge : b.graph.hasTag .merge n = false) :
    Ends (Ready g b n) (mapping build n b) := by
  have hadd {es : List (Value × Part)} {b₁ : Builder} (h₁ : Kept g b₁) (hgrows : Grows b b₁)
      (hparts : ∀ p ∈ (Collection.map es).parts, p.Within b₁.collections.size)
      (hes : ∀ {pairs}, b.graph.content? n = some (.mapping pairs) →
        List.Forall₂ b₁.Holds pairs es ∧ KeysApart es) :
      Ends (Ready g b n) ((do return .collection (← add (.map es)) : Building Part) b₁) := by
    refine .ok ⟨h₁.add hparts b₁.waiting, hgrows.trans (Grows.add _ _ b₁.waiting), ?_, ?_, ?_⟩
    · dsimp only
      rw [hgrows.graph]
      exact hmerge
    · rintro c hc
      cases hc
      exact (Array.size_push _).symm ▸ Nat.lt_succ_self _
    · intro c pairs entries hc hentries hn
      cases hc
      dsimp only at hentries hn
      rw [Array.getElem?_push_size] at hentries
      cases hentries
      rw [hgrows.graph] at hn
      exact hes hn
  unfold mapping
  refine after_yields rfl ?_
  rcases hn : b.graph.content? n with _ | ⟨text⟩ | ⟨items⟩ | ⟨pairs⟩
  · exact .error _
  · cases text with
    | nil => exact hadd h (.refl b) nofun fun hpairs => by rw [hn] at hpairs; cases hpairs
    | cons c text => exact .error _
  · cases items with
    | nil => exact hadd h (.refl b) nofun fun hpairs => by rw [hn] at hpairs; cases hpairs
    | cons m items => exact .error _
  · refine (entries_ends hbuild pairs [] [] h .nil .nil).bind fun ⟨es, b₁⟩ ⟨h₁, hgrows, hes⟩ => ?_
    refine hadd h₁ hgrows (h₁.held_within hes.1) fun hpairs => ?_
    rw [hn] at hpairs
    cases hpairs
    exact hes

end Parts

/-- An untouched node that begins and becomes ready is built. -/
theorem finish_done {b₂ : Builder} (hn : b.progress[n]? = some .untouched)
    (h : Ready g { b with progress := b.progress.setIfInBounds n .begun } n p b₂) :
    Ends (Done g b n)
      ((do
        setProgress n (.built p)
        return p : Building Part) b₂) := by
  obtain ⟨h₂, hgrows₂, hproper⟩ := h
  have hgrows := (Grows.begin hn).trans hgrows₂
  have hbegun : b₂.progress[n]? = some .begun := by
    refine hgrows₂.begun ?_
    dsimp only
    rw [progress_set _ hn, if_pos rfl]
  refine .ok ⟨h₂.finish hbegun hproper, ⟨hgrows.toExtends.trans (.finish hbegun p), ?_⟩, ?_⟩
  · intro m hm
    dsimp only
    rw [progress_set _ hbegun, if_neg (fun heq => by rw [← heq, hn] at hm; cases hm)]
    exact hgrows.begun hm
  · dsimp only
    rw [progress_set _ hbegun, if_pos rfl]

theorem build_done (levels n : Nat) (h : Kept g b) : Ends (Done g b n) (build levels n b) := by
  induction levels generalizing n b with
  | zero => exact .error _
  | succ levels ih =>
    rw [build]
    refine after_yields rfl (after_yields rfl ?_)
    cases hprogress : b.progress[n]? with
    | none => exact .error _
    | some progress =>
      cases progress with
      | begun => exact .error _
      | built p => exact .ok ⟨h, .refl b, hprogress⟩
      | untouched =>
        cases htag : b.graph.tag? n with
        | none => exact .error _
        | some tag =>
          have hbegun := h.begin hprogress
          have hmerge (hne : tag ≠ .merge) : b.graph.hasTag .merge n = false := by
            unfold Graph.hasTag
            rw [htag]
            simpa using hne
          have hempty {empty : Collection} (hne : tag ≠ .merge) (hparts : empty.parts = [])
              (hmap : ∀ entries, empty ≠ .map entries) :=
            (addEmpty_ready hbegun (n := n) (hmerge hne) hparts hmap).bind fun _ hp =>
              finish_done hprogress hp
          have hscalar (hne : tag ≠ .merge) :=
            scalar_ready hbegun (n := n) (hmerge hne) (b.graph.scalar (2 * (levels + 1)) n tag)
          refine after_yields rfl ?_
          cases tag with
          | seq => exact hempty (by decide) rfl (by simp)
          | omap => exact hempty (by decide) rfl (by simp)
          | pairs => exact hempty (by decide) rfl (by simp)
          | set => exact hempty (by decide) rfl (by simp)
          | map =>
            have hmapping := mapping_ready (fun n _ h => ih n h) (n := n) hbegun (hmerge (by decide))
            exact hmapping.bind fun _ hp => finish_done hprogress hp
          | merge => exact .error _
          | _ =>
            exact (hscalar (by decide)).bind fun _ hp => finish_done hprogress hp

/-! ## What waits -/

/-- From a state to a later one, in which all that was built is still as it was. -/
structure Goes (g : Graph) (b b' : Builder) : Prop where
  kept : Kept g b'
  size : b.collections.size ≤ b'.collections.size
  built {n : Nat} {p : Part} : b.progress[n]? = some (.built p) → b'.progress[n]? = some (.built p)

theorem Goes.refl (h : Kept g b) : Goes g b b := ⟨h, Nat.le_refl _, id⟩

theorem Goes.trans {b'' : Builder} (h : Goes g b b') (h' : Goes g b' b'') : Goes g b b'' :=
  ⟨h'.kept, Nat.le_trans h.size h'.size, fun hp => h'.built (h.built hp)⟩

abbrev Gives (g : Graph) (b : Builder) (parts : α → List Part) (r : Except Flaw (α × Builder)) : Prop :=
  Ends (fun a b' => Goes g b b' ∧ ∀ p ∈ parts a, p.Within b'.collections.size) r

theorem buildNode_done (n : Nat) (h : Kept g b) : Ends (Done g b n) (buildNode n b) :=
  build_done _ n h

theorem buildNode_gives (n : Nat) (h : Kept g b) : Gives g b (fun p => [p]) (buildNode n b) := by
  refine (buildNode_done n h).imp fun ⟨p, b'⟩ ⟨hkept, hgrows, hp⟩ => ⟨⟨hkept, ?_, hgrows.built⟩, ?_⟩
  · exact Nat.le_of_not_lt fun hless => Nat.lt_irrefl _ (hgrows.size hless)
  · exact List.forall_mem_singleton.mpr (hkept.proper hp).within

theorem pairOf_gives (n : Nat) (h : Kept g b) : Gives g b (fun x => [x.1, x.2]) (pairOf n b) := by
  have hentry : Ends (fun _ => Goes g b)
      ((liftM (b.graph.onlyEntry n) : Building (Nat × Nat)) b) := by
    cases b.graph.onlyEntry n with
    | error e => exact .error e
    | ok e => exact .ok (.refl h)
  refine after_yields rfl (hentry.bind fun ⟨e, b₁⟩ h₁ => ?_)
  refine (buildNode_gives e.1 h₁.kept).bind fun ⟨k, b₂⟩ ⟨h₂, hk⟩ => ?_
  refine (buildNode_gives e.2 h₂.kept).bind fun ⟨v, b₃⟩ ⟨h₃, hv⟩ => .ok ⟨(h₁.trans h₂).trans h₃, ?_⟩
  refine List.forall_mem_cons.mpr ⟨?_, hv⟩
  exact (List.forall_mem_singleton.mp hk).mono h₃.size

theorem mapM_gives {f : α → Building β} {parts : β → List Part}
    (hf : ∀ a b, Kept g b → Gives g b parts (f a b)) (as : List α) (h : Kept g b) :
    Gives g b (List.flatMap parts) (as.mapM f b) := by
  induction as generalizing b with
  | nil => exact .ok ⟨.refl h, nofun⟩
  | cons a as ih =>
    rw [List.mapM_cons]
    refine (hf a b h).bind fun ⟨c, b₁⟩ ⟨h₁, hc⟩ => ?_
    refine (ih h₁.kept).bind fun ⟨cs, b₂⟩ ⟨h₂, hcs⟩ => .ok ⟨h₁.trans h₂, ?_⟩
    rw [List.flatMap_cons]
    exact List.forall_mem_append.mpr ⟨fun p hp => (hc p hp).mono h₂.size, hcs⟩

theorem forM_goes {f : α → Building Unit}
    (hf : ∀ a b, Kept g b → Ends (fun _ => Goes g b) (f a b)) (as : List α) (h : Kept g b) :
    Ends (fun _ => Goes g b) (as.forM f b) := by
  induction as generalizing b with
  | nil => exact .ok (.refl h)
  | cons a as ih =>
    exact (hf a b h).bind fun ⟨_, b₁⟩ h₁ => (ih h₁.kept).imp fun _ h₂ => h₁.trans h₂

theorem members_goes (es : List (Nat × Nat)) (sofar : List Value) (h : Kept g b) :
    Ends (fun _ => Goes g b) (members es sofar b) := by
  induction es generalizing sofar b with
  | nil => exact .ok (.refl h)
  | cons e es ih =>
    rw [members]
    refine (buildNode_gives e.1 h).bind ?_
    rintro ⟨p, b₁⟩ ⟨h₁, -⟩
    cases p with
    | collection c => exact after_yields rfl (.error _)
    | scalar key =>
      refine after_yields rfl ((buildNode_gives e.2 h₁.kept).bind ?_)
      rintro ⟨_, b₂⟩ ⟨h₂, -⟩
      exact (ih _ h₂.kept).imp fun _ h₃ => (h₁.trans h₂).trans h₃

/-- The pairs of a built mapping are not moved by merging, since their keys have been built. -/
theorem Kept.unmerged (h : Kept g b) {c : Nat} {pairs : List (Nat × Nat)}
    {entries : List (Value × Part)} (hn : b.progress[n]? = some (.built (.collection c)))
    (hc : b.collections[c]? = some (.map entries))
    (hpairs : b.graph.content? n = some (.mapping pairs)) : Graph.Unmerged n pairs b.graph := by
  obtain ⟨hholds, -⟩ := (h.proper hn).pairs rfl hc hpairs
  refine ⟨hpairs, fun e he => ?_⟩
  obtain ⟨i, hi, rfl⟩ := List.mem_iff_getElem.mp he
  have hi' : i < entries.length := hholds.length_eq ▸ hi
  have hentry : b.Holds pairs[i] entries[i] := hholds.get hi hi'
  exact (h.proper hentry.1).unmerged

theorem Kept.flatten (h : Kept g b) (n : Nat) :
    Yields (fun _ => True) (fun flat => Goes g b { b with graph := flat }) (b.graph.flatten n) := by
  have hself := (Yields.self (b.graph.flatten n)).mono fun _ _ => trivial
  refine hself.imp fun flat hflat => ⟨?_, Nat.le_refl _, id⟩
  have hmerged : g.Merged flat := (h.merged.flatten n).result hflat
  refine ⟨hmerged, h.closed, fun {m p} hp => ?_⟩
  have hproper := h.proper hp
  refine ⟨?_, hproper.bound, fun {c pairs entries} hm hc hpairs => ?_⟩
  · dsimp only
    rw [hmerged.hasTag_merge, ← h.merged.hasTag_merge]
    exact hproper.unmerged
  · subst hm
    dsimp only at hc hpairs
    -- The node was a mapping before, and as such it has not been changed.
    obtain ⟨own, hown⟩ := hmerged.mapping hpairs
    obtain ⟨before, hbefore⟩ := Graph.mapping_of_kind (h.merged.kind m).symm hown
    have hsame := ((h.unmerged hp hc hbefore).flatten n).result hflat
    rw [hsame.1] at hpairs
    cases hpairs
    exact hproper.pairs rfl hc hbefore

theorem filling_goes (n : Nat) (empty : Collection) (h : Kept g b) :
    Ends (fun c b' => Goes g b b' ∧ (∀ p ∈ c.parts, p.Within b'.collections.size) ∧
      ∀ entries, c ≠ .map entries) (filling n empty b) := by
  unfold filling
  refine after_yields rfl ?_
  rcases hn : b.graph.content? n with _ | ⟨text⟩ | ⟨items⟩ | ⟨es⟩
  · cases empty <;> exact .error _
  · cases empty <;> exact .error _
  · cases empty with
    | list =>
      have hitems := mapM_gives (fun n _ h => buildNode_gives n h) items h
      refine hitems.bind fun ⟨parts, b'⟩ ⟨h', hparts⟩ => .ok ⟨h', ?_, nofun⟩
      rwa [List.flatMap_singleton'] at hparts
    | pairs =>
      have hitems := mapM_gives (fun n _ h => pairOf_gives n h) items h
      exact hitems.bind fun _ ⟨h', hparts⟩ => .ok ⟨h', hparts, nofun⟩
    | set => exact .error _
    | map => exact .error _
  · cases empty with
    | set =>
      have hflat : Ends (fun flat b' => b' = b ∧ Goes g b { b with graph := flat })
          ((liftM (b.graph.flatten n) : Building Graph) b) :=
        (h.flatten n).bind fun flat hflat => .ok ⟨rfl, hflat⟩
      refine after_yields rfl (hflat.bind fun ⟨flat, b'⟩ ⟨hb', h₁⟩ => ?_)
      subst hb'
      refine after_yields rfl ?_
      exact (members_goes _ [] h₁.kept).bind fun _ h₂ => .ok ⟨h₁.trans h₂, nofun, nofun⟩
    | list => exact .error _
    | pairs => exact .error _
    | map => exact .error _

/-- No mapping is filled anew. -/
theorem fill_goes (task : Nat × Nat) (h : Kept g b) : Ends (fun _ => Goes g b) (fill task b) := by
  unfold fill
  refine after_yields rfl ?_
  cases b.collections[task.2]? with
  | none => exact .ok (.refl h)
  | some empty =>
    refine (filling_goes task.1 empty h).bind fun ⟨c, b₁⟩ ⟨h₁, hparts, hc⟩ => .ok ⟨?_, ?_, h₁.built⟩
    case refine_2 =>
      dsimp only
      rw [Array.size_setIfInBounds]
      exact h₁.size
    refine ⟨h₁.kept.merged, Closed.set h₁.kept.closed hparts, fun {n p} hp => ?_⟩
    have hproper := h₁.kept.proper hp
    refine ⟨hproper.unmerged, fun hn => ?_, fun {m pairs entries} hn hentries hpairs => ?_⟩
    · dsimp only
      rw [Array.size_setIfInBounds]
      exact hproper.bound hn
    · dsimp only at hentries
      rw [Array.getElem?_setIfInBounds] at hentries
      split at hentries
      next =>
        split at hentries
        · exact absurd (Option.some.inj hentries) (hc entries)
        · cases hentries
      next => exact hproper.pairs hn hentries hpairs

theorem settle_goes (rounds : Nat) (h : Kept g b) : Ends (fun _ => Goes g b) (settle rounds b) := by
  induction rounds generalizing b with
  | zero => exact .ok (.refl h)
  | succ rounds ih =>
    rw [settle]
    refine after_yields rfl ?_
    by_cases hnone : b.waiting.reverse.isEmpty = true
    · rw [if_pos hnone]
      exact .ok (.refl h)
    · rw [if_neg hnone]
      have hempty : Kept g { b with waiting := [] } :=
        ⟨h.merged, h.closed, fun hp => ⟨(h.proper hp).unmerged, (h.proper hp).bound, (h.proper hp).pairs⟩⟩
      refine after_yields rfl ?_
      refine (forM_goes (fun task _ h => fill_goes task h) b.waiting.reverse hempty).bind ?_
      rintro ⟨_, b₁⟩ h₁
      exact (ih h₁.kept).imp fun _ h₂ =>
        ⟨h₂.kept, Nat.le_trans h₁.size h₂.size, fun hp => h₂.built (h₁.built hp)⟩

end PenPlotter.Yaml.Builder
