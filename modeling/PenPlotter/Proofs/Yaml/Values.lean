import PenPlotter.Proofs.Result
import PenPlotter.Proofs.Value.Shown
import PenPlotter.Proofs.Yaml.Brought
import PenPlotter.Yaml.Builder
/-! # Faults of values

A document's nodes may be read as texts, entries and all, and still have no value. `Blames` lists the
parts of a document that a fault can come from: a text that its tag does not fit, a collection as a
key, a key too long to be named twice, things in the place of a mapping that are none, and nodes that
only too many calls within each other reach. Building the collections meets no other faults, however
mappings are merged on the way.
-/
namespace PenPlotter.Yaml
open Text

def Tag.containerName? : Tag → Option String
  | .seq | .omap | .pairs => some "list"
  | .set => some "set"
  | .map => some "dict"
  | _ => none

namespace Graph

/-- The text of a node: that of a scalar, or the one that a value key names for a mapping. -/
inductive HasText (g : Graph) : Nat → List Code → Prop
  | own {n : Nat} {text : List Code} (hn : g.content? n = some (.scalar text)) : HasText g n text
  | named {n m : Nat} {es : List (Nat × Nat)} {e : Nat × Nat} {text : List Code}
      (hn : g.content? n = some (.mapping es)) (he : e ∈ g.entries m)
      (hkey : g.hasTag .value e.1 = true) (hvalue : g.content? e.2 = some (.scalar text)) :
      HasText g n text

/-- An integer that is read but has more digits than are written. -/
def LongInteger (g : Graph) (n : Nat) : Prop :=
  g.tag? n = some .int ∧
    ∃ text i, g.HasText n text ∧ readInt text = .ok i ∧ Decimal.writable i = false

/-- The parts of a document that keep it from having a value, with the fault that each one is. -/
inductive Blames (g : Graph) : Fault → Prop
  | text {n : Nat} {tag : Tag} {text : List Code} {f : Fault} (htag : g.tag? n = some tag)
      (htext : g.HasText n text) (hf : readScalar tag (n + 1) text = .error (.fault f)) : Blames g f
  | deep {n : Nat} (hcalls : g.Calls callRoom n) : Blames g (.tooDeep "")
  | timestamp {n : Nat} {es : List (Nat × Nat)} (htag : g.tag? n = some .timestamp)
      (hn : g.content? n = some (.mapping es)) : Blames g (.notMatchable "list")
  | key {m : Nat} {e : Nat × Nat} {tag : Tag} {kind : String} (he : e ∈ g.entries m)
      (htag : g.tag? e.1 = some tag) (hkind : tag.containerName? = some kind) :
      Blames g (.unhashable kind)
  | longKey {m : Nat} {e : Nat × Nat} (he : e ∈ g.entries m) (hkey : g.LongInteger e.1) :
      Blames g .tooManyDigits
  | sequence {n m : Nat} {items : List Nat} (htag : g.tag? n = some .map)
      (hn : g.content? n = some (.sequence (m :: items))) :
      Blames g (.notAPair (((g.content? m).map (·.kindName)).getD ""))
  | scalar {n : Nat} {c : Code} {text : List Code} (htag : g.tag? n = some .map)
      (hn : g.content? n = some (.scalar (c :: text))) : Blames g (.pairTooShort 1)

variable {g g' : Graph}

/-! ## Scalars -/

theorem Derived.hasTag_value (h : Derived g g') {n : Nat} (hn : g'.hasTag .value n = true) :
    g.hasTag .value n = true := by
  have htag : g'.tag? n = some .value := by simpa [hasTag] using hn
  rcases h.tag htag with ht | ⟨ht, -⟩
  · simpa [hasTag] using ht
  · simpa [hasTag] using ht

theorem scalarText_yields (h : Merged g g') {k room n : Nat} (hroom : k + room = callRoom)
    (hcalls : g.Calls k n) : Yields g.Blames (g.HasText n) (g'.scalarText room n) := by
  induction room generalizing k n with
  | zero =>
    rw [Nat.add_zero] at hroom
    exact .fault (.deep (hroom ▸ hcalls))
  | succ room ih =>
    rw [scalarText]
    split
    next hn => exact .ok (.own (h.scalar hn))
    next es hn =>
      split
      next e he =>
        have hvalue : g.hasTag .value e.1 = true := by
          have hkey := List.find?_some he
          exact h.hasTag_value hkey
        have hentry : e ∈ g'.entries n := mem_entries_iff.mpr ⟨es, hn, List.mem_of_find?_eq_some he⟩
        obtain ⟨m, hm⟩ := h.entry hentry
        obtain ⟨own, hown⟩ := h.mapping hn
        refine (ih (by omega) (hcalls.value (h.has hentry) hvalue)).imp fun text htext => ?_
        cases htext with
        | own hc => exact .named hown hm hvalue hc
        | named _ he' hkey' hc => exact .named hown he' hkey' hc
      next => exact .malformed
    next => exact .malformed

theorem readTimestamp_showable {text : List Code} {v : Value} (h : readTimestamp text = .ok v) :
    v.showable = true := by
  unfold readTimestamp at h
  split at h
  · cases h
  · split at h
    · split at h
      · cases h
        rfl
      · cases h
    · split at h
      · cases h
        rfl
      · cases h

/-- Of the scalars only an integer can be impossible to show. -/
theorem readScalar_showable {tag : Tag} {payload : Nat} {text : List Code} {v : Value}
    (h : readScalar tag payload text = .ok v) : v.showable = true ∨
      tag = .int ∧ v.fits = true ∧ ∃ i, readInt text = .ok i ∧ Decimal.writable i = false := by
  cases tag with
  | null =>
    cases h
    exact .inl rfl
  | bool =>
    obtain ⟨b, -, rfl⟩ := map_eq_ok.mp h
    exact .inl rfl
  | int =>
    obtain ⟨i, hi, rfl⟩ := map_eq_ok.mp h
    cases hw : Decimal.writable i with
    | true => exact .inl (Value.showable_iff.mpr ⟨hw, rfl⟩)
    | false => exact .inr ⟨rfl, rfl, i, mapError_eq_ok.mp hi, hw⟩
  | float =>
    obtain ⟨x, -, rfl⟩ := map_eq_ok.mp h
    exact .inl rfl
  | binary =>
    obtain ⟨b, -, rfl⟩ := map_eq_ok.mp h
    exact .inl rfl
  | timestamp => exact .inl (readTimestamp_showable (mapError_eq_ok.mp h))
  | str =>
    cases h
    unfold Value.ofCodes
    split
    · exact .inl rfl
    · exact .inl rfl
  | _ => cases h

def Tells (g : Graph) (n : Nat) (v : Value) : Prop :=
  v.showable = true ∨ v.fits = true ∧ g.LongInteger n

theorem scalar_yields (h : Merged g g') {k room n : Nat} (hroom : k + room = callRoom)
    (hcalls : g.Calls k n) {tag : Tag} (htag : g'.tag? n = some tag) :
    Yields g.Blames (g.Tells n) (g'.scalar room n tag) := by
  unfold scalar
  split
  next hreadable =>
    refine (scalarText_yields h hroom hcalls).bind fun text htext => ?_
    split
    next hn =>
      obtain ⟨own, hown⟩ := h.mapping hn
      exact .fault (.timestamp (h.tag_of_ne htag (by decide)) hown)
    next tag _ _ _ =>
      have hread := Yields.self (readScalar tag (n + 1) text)
      rcases h.tag htag with ht | ⟨-, rfl⟩
      · refine (hread.mono fun f hf => Blames.text ht htext hf).imp fun v hv => ?_
        rcases readScalar_showable hv with hw | ⟨rfl, hfits, i, hi, hlong⟩
        · exact .inl hw
        · exact .inr ⟨hfits, ht, text, i, htext, hi, hlong⟩
      · -- An ordinary text, as which a value key may end, can always be read.
        refine (hread.mono fun f hf => by cases hf).imp fun v hv => ?_
        rcases readScalar_showable hv with hw | ⟨hint, -⟩
        · exact .inl hw
        · cases hint
  next => exact .malformed

end Graph
end PenPlotter.Yaml
