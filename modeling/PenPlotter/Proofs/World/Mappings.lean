import PenPlotter.Proofs.Result
import PenPlotter.Proofs.Yaml.Pairs
import PenPlotter.World.Document
/-! # Documents keep the entries of their mappings

Where a text has a document, each of its mappings has one entry for each pair of nodes, in order, and no
key twice. A mapping with merge keys is no exception, but gets what they bring in their stead: merging for
a set changes it for all its uses, and without that it has no value.
-/
namespace PenPlotter
open Text

namespace Yaml
namespace Builder

def mapping? (b : Builder) (n : Nat) : Option (List (Value × Part)) :=
  match b.progress[n]? with
  | some (.built (.collection c)) => match b.collections[c]? with
    | some (.map entries) => some entries
    | _ => none
  | _ => none

theorem mapping?_eq_some {b : Builder} {n : Nat} {entries : List (Value × Part)} :
    b.mapping? n = some entries ↔ ∃ c, b.progress[n]? = some (.built (.collection c)) ∧
      b.collections[c]? = some (.map entries) := by
  unfold mapping?
  constructor
  · intro h
    split at h
    next c hc =>
      split at h
      next es hes =>
        cases h
        exact ⟨c, hc, hes⟩
      next => cases h
    next => cases h
  · rintro ⟨c, hc, hentries⟩
    rw [hc]
    dsimp only
    rw [hentries]

end Builder

/-- All that the value of a node holds, built: the node's own part, and the collections. -/
def Graph.construct (g : Graph) (root : Nat) : Except Flaw (Part × Builder) :=
  let work : Building Part := do
    let p ← Builder.buildNode root
    Builder.settle (g.size + 1)
    return p
  work.run { graph := g, progress := Array.replicate g.size .untouched }

theorem Graph.value_eq_ok {g : Graph} {root : Nat} {v : Value} (h : g.value root = .ok v) :
    ∃ part done, g.construct root = .ok (part, done) ∧ part.value done.collections = v := by
  change (g.construct root >>= fun p => .ok (p.1.value p.2.collections)) = .ok v at h
  obtain ⟨⟨part, done⟩, hconstruct, hv⟩ := bind_eq_ok.mp h
  exact ⟨part, done, hconstruct, Except.ok.inj hv⟩

/-- The nodes of a text, and what has been built of them in the end. -/
structure Construction (text : List Char) where
  graph : Graph
  root : Nat
  part : Part
  done : Builder
  composed : node? (events (tokens text)) = .ok (some (graph, root))
  constructed : graph.construct root = .ok (part, done)

namespace Construction
variable {text : List Char}

def document (c : Construction text) : Value := c.part.value c.done.collections

theorem kept (c : Construction text) : Builder.Kept c.graph c.done ∧
    c.done.progress[c.root]? = some (.built c.part) := by
  have hstart : Builder.Kept c.graph
      { graph := c.graph, progress := Array.replicate c.graph.size .untouched } := by
    refine ⟨.refl c.graph, fun {n d} hd => ?_, fun {n p} hp => ?_⟩
    · cases hd
    · dsimp only at hp
      rw [Array.getElem?_replicate] at hp
      split at hp
      · cases hp
      · cases hp
  have hends : Yields (fun _ => True)
      (fun p => Builder.Kept c.graph p.2 ∧ p.2.progress[c.root]? = some (.built p.1))
      (c.graph.construct c.root) := by
    refine (Builder.buildNode_done c.root hstart).bind fun ⟨p, b⟩ ⟨h, _, hp⟩ => ?_
    exact (Builder.settle_goes _ h).bind fun _ hgoes => .ok ⟨hgoes.kept, hgoes.built hp⟩
  exact hends.result c.constructed

/-- The document shows the root with all that it holds. -/
theorem shows (c : Construction text) :
    ∃ v, Shows c.done.collections [] c.part v ∧ c.document = v.untied :=
  Part.value_shows c.kept.1.closed (c.kept.1.proper c.kept.2).within

/-- A mapping has the entries of the pairs that its merge keys bring, and behind them its own ones. -/
theorem pairs (c : Construction text) {n : Nat} {pairs : List (Nat × Nat)}
    {entries : List (Value × Part)} (hpairs : c.graph.content? n = some (.mapping pairs))
    (hentries : c.done.mapping? n = some entries) :
    Builder.KeysApart entries ∧ ∃ front, (∀ x ∈ front, c.graph.Brings n x) ∧
      List.Forall₂ c.done.Holds (front ++ c.graph.ownEntries n) entries := by
  obtain ⟨k, hk, hmap⟩ := Builder.mapping?_eq_some.mp hentries
  have hkept := c.kept.1
  obtain ⟨merged, hmerged⟩ := Graph.mapping_of_kind (hkept.merged.kind n).symm hpairs
  obtain ⟨hholds, hapart⟩ := (hkept.proper hk).pairs rfl hmap hmerged
  have hown := (hkept.unmerged hk hmap hmerged).2
  have hrearranged := hkept.merged.rearranged n
  rw [show c.done.graph.entries n = merged by unfold Graph.entries; rw [hmerged]] at hrearranged
  obtain ⟨front, rfl, hfront⟩ := hrearranged.split fun e he => by
    rw [← hkept.merged.hasTag_merge]
    exact hown e he
  exact ⟨hapart, front, hfront, hholds⟩

/-- Merge keys are not built, so they have no entries. -/
theorem pairs_iff (c : Construction text) {n : Nat} {pairs : List (Nat × Nat)}
    {entries : List (Value × Part)} (hpairs : c.graph.content? n = some (.mapping pairs))
    (hentries : c.done.mapping? n = some entries) :
    List.Forall₂ c.done.Holds pairs entries ↔ ∀ x ∈ pairs, c.graph.hasTag .merge x.1 = false := by
  have hentriesOf : c.graph.entries n = pairs := by
    unfold Graph.entries
    rw [hpairs]
  constructor
  · intro hholds x hx
    obtain ⟨i, hi, rfl⟩ := List.mem_iff_getElem.mp hx
    have hheld := hholds.get hi (hholds.length_eq ▸ hi)
    rw [← c.kept.1.merged.hasTag_merge]
    exact (c.kept.1.proper hheld.1).unmerged
  · intro hown
    obtain ⟨-, front, hfront, hholds⟩ := c.pairs hpairs hentries
    have hnone : front = [] := by
      refine List.eq_nil_iff_forall_not_mem.mpr fun x hx => ?_
      exact Graph.not_brings (fun e he => hown e (hentriesOf ▸ he)) x (hfront x hx)
    have hall : c.graph.ownEntries n = pairs := by
      unfold Graph.ownEntries
      rw [hentriesOf]
      exact List.filter_eq_self.mpr fun e he => by simp [hown e he]
    rwa [hnone, hall] at hholds

/-- What a test finds for the only construction of a text. -/
theorem tested (c : Construction text) (test : Graph → Builder → Bool)
    (h : ((node? (events (tokens text))).toOption.join.bind fun p =>
      (p.1.construct p.2).toOption.map fun q => test p.1 q.2) = some true) :
    test c.graph c.done = true := by
  rw [c.composed] at h
  change (c.graph.construct c.root).toOption.map (fun q => test c.graph q.2) = some true at h
  rw [c.constructed] at h
  exact Option.some.inj h

end Construction
end Yaml

open Yaml

variable {role : DocumentRole} {source : String} {text : List Char} {doc : Value}

theorem documentOfText_construction (h : documentOfText role source text = .ok doc) :
    ∃ c : Construction text, c.document = doc := by
  have hread : Yaml.read text = .ok doc := by
    unfold documentOfText at h
    split at h
    next v hv =>
      split at h
      · cases h
        exact hv
      · cases h
    next => split at h <;> cases h
  have hmapping : doc ≠ .null := by
    rintro rfl
    unfold documentOfText at h
    rw [hread] at h
    cases h
  unfold Yaml.read at hread
  split at hread
  · cases hread
  · obtain ⟨node, hnode, hvalue⟩ := bind_eq_ok.mp hread
    cases node with
    | none => exact absurd (Except.ok.inj hvalue).symm hmapping
    | some node =>
      obtain ⟨part, done, hconstruct, hv⟩ := Graph.value_eq_ok hvalue
      exact ⟨⟨node.1, node.2, part, done, hnode, hconstruct⟩, hv⟩

/-- A document shows the collections of its text. Every mapping among them has the entries of its own
pairs, with keys that are all different, behind those of the pairs that merge keys bring; and it has
exactly one entry for each of its pairs, in order, if and only if none of them is a merge key. -/
theorem document_keeps_pairs (h : documentOfText role source text = .ok doc) :
    ∃ c : Construction text, c.document = doc ∧
      (∃ v, Shows c.done.collections [] c.part v ∧ doc = v.untied) ∧
      ∀ {n : Nat} {pairs : List (Nat × Nat)} {entries : List (Value × Part)},
        c.graph.content? n = some (.mapping pairs) → c.done.mapping? n = some entries →
        Builder.KeysApart entries ∧
        (∃ front, (∀ x ∈ front, c.graph.Brings n x) ∧
          List.Forall₂ c.done.Holds (front ++ c.graph.ownEntries n) entries) ∧
        (List.Forall₂ c.done.Holds pairs entries ↔
          ∀ x ∈ pairs, c.graph.hasTag .merge x.1 = false) := by
  obtain ⟨c, rfl⟩ := documentOfText_construction h
  refine ⟨c, rfl, c.shows, fun hpairs hentries => ?_⟩
  obtain ⟨hapart, hfront⟩ := c.pairs hpairs hentries
  exact ⟨hapart, hfront, c.pairs_iff hpairs hentries⟩

def pairsBuilt (n : Nat) (pairs : List (Nat × Nat)) (count : Nat) (g : Graph) (b : Builder) : Bool :=
  g.entries n == pairs && (b.mapping? n).any fun entries => entries.length == count

theorem pairsBuilt_iff {n count : Nat} {x : Nat × Nat} {pairs : List (Nat × Nat)} {g : Graph}
    {b : Builder} (h : pairsBuilt n (x :: pairs) count g b = true) :
    g.content? n = some (.mapping (x :: pairs)) ∧
      ∃ entries, b.mapping? n = some entries ∧ entries.length = count := by
  unfold pairsBuilt at h
  rw [Bool.and_eq_true, beq_iff_eq, Option.any_eq_true] at h
  obtain ⟨hpairs, entries, hentries, hcount⟩ := h
  refine ⟨?_, entries, hentries, by simpa using hcount⟩
  have hx : x ∈ g.entries n := hpairs ▸ List.mem_cons_self
  obtain ⟨es, hes, -⟩ := Graph.mem_entries_iff.mp hx
  rw [hes, ← hpairs]
  unfold Graph.entries
  rw [hes]

def nestedText : List Char := "commands:\n  - \x7ba: 1, b: [2]\x7d\n".toList

theorem document_keeps_pairs_nested :
    ∃ doc, documentOfText .job "plot.yaml" nestedText = .ok doc ∧
      ∃ c : Construction nestedText, c.document = doc ∧
        ∃ entries, entries.length = 2 ∧ Builder.KeysApart entries ∧
          List.Forall₂ c.done.Holds [(4, 5), (6, 7)] entries := by
  have hdoc : (documentOfText .job "plot.yaml" nestedText).toOption.isSome = true := by
    decide +kernel
  obtain ⟨doc, hdoc⟩ := Option.isSome_iff_exists.mp hdoc
  have hdoc := toOption_eq_some hdoc
  obtain ⟨c, hc, -, hkeeps⟩ := document_keeps_pairs hdoc
  have hbuilt := c.tested (pairsBuilt 3 [(4, 5), (6, 7)] 2) (by decide +kernel)
  obtain ⟨hpairs, entries, hentries, hcount⟩ := pairsBuilt_iff hbuilt
  obtain ⟨hapart, -, hholds⟩ := hkeeps hpairs hentries
  have hplain := c.tested (fun g _ => !g.hasTag .merge 4 && !g.hasTag .merge 6)
    (by decide +kernel)
  refine ⟨doc, hdoc, c, hc, entries, hcount, hapart, hholds.mpr fun x hx => ?_⟩
  rw [Bool.and_eq_true] at hplain
  rcases List.mem_cons.mp hx with rfl | hx
  · simpa using hplain.1
  · rw [List.mem_singleton.mp hx]
    simpa using hplain.2

def mergedText : List Char :=
  "s: !!set\n  <<: &m \x7b<<: \x7b1: 1\x7d, <<: \x7b2: 2\x7d\x7d\nl: [*m]\n".toList

/-- The set makes a mapping of the list, which has the same merge key twice, one of two other pairs. -/
theorem document_moves_pairs :
    ¬∀ (text : List Char) (doc : Value), documentOfText .profile "doc.yaml" text = .ok doc →
      ∃ c : Construction text, c.document = doc ∧
        ∀ {n : Nat} {pairs : List (Nat × Nat)} {entries : List (Value × Part)},
          c.graph.content? n = some (.mapping pairs) → c.done.mapping? n = some entries →
          Builder.KeysApart entries ∧ List.Forall₂ c.done.Holds pairs entries := by
  intro hall
  have hdoc : (documentOfText .profile "doc.yaml" mergedText).toOption.isSome = true := by
    decide +kernel
  obtain ⟨doc, hdoc⟩ := Option.isSome_iff_exists.mp hdoc
  obtain ⟨c, -, hkeeps⟩ := hall mergedText doc (toOption_eq_some hdoc)
  have hbuilt := c.tested (pairsBuilt 4 [(5, 6), (9, 10)] 2) (by decide +kernel)
  obtain ⟨hpairs, entries, hentries, -⟩ := pairsBuilt_iff hbuilt
  obtain ⟨-, hholds⟩ := hkeeps hpairs hentries
  cases hholds with
  | cons hfirst _ =>
    have hmerge := c.tested (fun g _ => g.hasTag .merge 5) (by decide +kernel)
    have hunmerged := (c.kept.1.proper hfirst.1).unmerged
    rw [c.kept.1.merged.hasTag_merge, hmerge] at hunmerged
    cases hunmerged

end PenPlotter
