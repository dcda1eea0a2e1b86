import PenPlotter.Proofs.Profile.Declared
import PenPlotter.Proofs.Profile.Form
/-! # The identifiers of built profiles

The form of identifiers asks for a first character and later ones, up to the end of the text or to a line
break that ends it. So an identifier with a line break behind it is taken as well; no other text that is
not of the form is.
-/
namespace PenPlotter.Profile
open Schema

def IsIdLater (c : Char) : Prop := IsIdStart c ∨ c = '.' ∨ c = '-'

/-- Identifiers that are of the form to their end. -/
structure PlainId (s : List Char) : Prop where
  start : ∃ c, s.head? = some c ∧ IsIdStart c
  characters : ∀ c ∈ s, IsIdLater c

theorem plainId_cons {c : Char} {cs : List Char} (hc : IsIdStart c)
    (hcs : ∀ d ∈ cs, IsIdLater d) : PlainId (c :: cs) where
  start := ⟨c, rfl, hc⟩
  characters := List.forall_mem_cons.mpr ⟨.inl hc, hcs⟩

theorem PlainId.not_mem {s : List Char} (h : PlainId s) {c : Char} (hc : ¬ IsIdLater c) : c ∉ s :=
  fun hmem => hc (h.characters c hmem)

theorem not_isIdLater_newline : ¬ IsIdLater '\n' := by
  unfold IsIdLater IsIdStart
  decide

theorem IdText.exists_plain {s : List Char} (h : IdText s) :
    ∃ id, PlainId id ∧ (s = id ∨ s = id ++ ['\n']) := by
  cases h with
  | plain hc hcs => exact ⟨_, plainId_cons hc hcs, .inl rfl⟩
  | line hc hcs => exact ⟨_, plainId_cons hc hcs, .inr rfl⟩

/-- The identifier of a built profile is the text that the document gives, and it has the form asked
for. -/
theorem idText_of_build {source : String} {doc : Value} {p : Profile}
    (h : build source doc = .ok p) :
    part? doc ["id"] = some (.str p.id) ∧ IdText p.id.toList := by
  obtain ⟨hdoc, hp⟩ := build_eq_ok.mp h
  obtain ⟨es, rfl⟩ := object_of_accepts hdoc
  obtain ⟨hid, -⟩ := ofDocument_eq_ok.mp hp
  obtain ⟨v, hv⟩ : ∃ v, Value.field? "id" es = some v :=
    accepts_needed hdoc (by simp [needed, schema])
  have hacc : accepts [.kinds [.string], .form idForm] v = true :=
    accepts_field hdoc (by simp [fields, schema]) hv
  obtain ⟨htext⟩ := id_iff.mp hacc
  rw [entriesOf, field_entries, hv, Option.getD_some, textOf] at hid
  rw [hid, part?_singleton]
  exact ⟨hv, htext⟩

/-- The identifier of a built profile is of its form to the end just where it has no line break. One
that has a line break has it behind such an identifier, and nothing behind it. -/
theorem plainId_iff_of_build {source : String} {doc : Value} {p : Profile}
    (h : build source doc = .ok p) :
    part? doc ["id"] = some (.str p.id) ∧ (PlainId p.id.toList ↔ '\n' ∉ p.id.toList) ∧
      ∃ id, PlainId id ∧ (p.id.toList = id ∨ p.id.toList = id ++ ['\n']) := by
  obtain ⟨hgiven, htext⟩ := idText_of_build h
  obtain ⟨id, hplain, hid⟩ := htext.exists_plain
  refine ⟨hgiven, ?_, id, hplain, hid⟩
  rcases hid with hid | hid
  · rw [hid]
    exact iff_of_true hplain (hplain.not_mem not_isIdLater_newline)
  · have hmem : '\n' ∈ p.id.toList := by
      rw [hid]
      exact List.mem_concat_self
    exact iff_of_false (fun hall => hall.not_mem not_isIdLater_newline hmem) fun hno => hno hmem

theorem plainId_iff_of_build_hyphen :
    ∃ p, build "a.yaml" (leastDocument "hp-7470.a" []) = .ok p ∧
      (PlainId p.id.toList ↔ '\n' ∉ p.id.toList) := by
  have hbuilt : (build "a.yaml" (leastDocument "hp-7470.a" [])).toOption.isSome = true := by
    decide +kernel
  obtain ⟨p, hp⟩ := Option.isSome_iff_exists.mp hbuilt
  obtain ⟨-, hiff, -⟩ := plainId_iff_of_build (toOption_eq_some hp)
  exact ⟨p, toOption_eq_some hp, hiff⟩

/-- A line break behind an identifier. -/
theorem build_notPlainId_newline :
    ∃ p, build "a.yaml" (leastDocument "a\n" []) = .ok p ∧ p.id = "a\n" ∧ ¬ PlainId p.id.toList := by
  have hbuilt : (build "a.yaml" (leastDocument "a\n" [])).toOption.map (·.id) = some "a\n" := by
    decide +kernel
  obtain ⟨p, hp, hid⟩ := Option.map_eq_some_iff.mp hbuilt
  refine ⟨p, toOption_eq_some hp, hid, fun hplain => ?_⟩
  have hmem : '\n' ∈ p.id.toList := by
    rw [hid]
    decide
  exact hplain.not_mem not_isIdLater_newline hmem

end PenPlotter.Profile
