import PenPlotter.Proofs.Schema.First
/-! # Breaches that cannot be told

The first broken rule of a schema has no message where that message shows an integer of too many digits.
For each kind of rule this is put in terms of the value: what is shown, and which parts come before it.
The values here are shallow, so that no other limit is met.
-/
namespace PenPlotter

theorem Value.ShownIf.error_iff {α : Type} {w n : Bool} {r : Except Fault α} (h : ShownIf w n r)
    (hn : n = true) {f : Fault} : r = .error f ↔ w = false ∧ f = .tooManyDigits := by
  cases h with
  | ok a => simp
  | digits => simp [eq_comm]
  | depth => cases hn

/-- Keys without a property are listed unless one of them cannot be shown. -/
theorem unexpectedKeys_error_iff {keys : List Value} (hfits : ∀ k ∈ keys, k.fits = true) {f : Fault} :
    unexpectedKeys keys = .error f ↔ (∃ k ∈ keys, k.writable = false) ∧ f = .tooManyDigits := by
  by_cases hall : ∀ k ∈ keys, k.writable = true
  · obtain ⟨s, hs⟩ := (unexpectedKeys_toldIf (p := True) fun k hk _ =>
      ⟨hall k hk, hfits k hk⟩).exists_ok trivial
    rw [hs]
    refine iff_of_false (by simp) ?_
    rintro ⟨⟨k, hk, hfalse⟩, -⟩
    simp [hall k hk] at hfalse
  · have hnamed : Value.ShownIf (keys.all Value.writable) (keys.all Value.fits) (keys.mapM fun k =>
        (do return ((← k.textCodes).map Text.Code.toNat, k) : Except Fault (List Nat × Value))) :=
      Value.ShownIf.mapM fun k _ => (Value.textCodes_shownIf k).map _
    have hnot : keys.all Value.writable = false := by
      rw [← Bool.not_eq_true, List.all_eq_true]
      exact hall
    have herror : unexpectedKeys keys = .error .tooManyDigits := by
      rw [unexpectedKeys, (hnamed.error_iff (List.all_eq_true.mpr hfits)).mpr ⟨hnot, rfl⟩]
      rfl
    rw [herror, and_iff_right (by simpa using hall), Except.error.injEq, eq_comm]

/-- The first breach of a rule has a fault in place of its message. -/
def Rule.Wordless (f : Fault) (rule : Rule) (v : Value) : Prop :=
  Schema.ruleBreach? (fun _ => true) rule v = some (.error f)

def Schema.Wordless (f : Fault) (s : Schema) (v : Value) : Prop :=
  firstBreach? s v = some (.error f)

namespace Schema
variable {f : Fault} {rule : Rule} {rules : List Rule} {v : Value}

theorem not_wordless_nil : ¬ Wordless f [] v := Option.some_ne_none _ ∘ Eq.symm

theorem wordless_cons :
    Wordless f (rule :: rules) v ↔ rule.Wordless f v ∨ rule.Kept v ∧ Wordless f rules v :=
  firstBreach?_cons

/-- What can be told is not without a message. -/
theorem not_wordless {compared : Bool} (hrules : Rule.tellableRules compared rules = true)
    (hv : v.Tellable compared) : ¬ Wordless f rules v := by
  intro h
  obtain ⟨violation, hok⟩ := (firstBreach?_toldIf hrules h).exists_ok hv
  cases hok

end Schema

namespace Rule
open Schema
variable {f : Fault} {v : Value} {es : List (Value × Value)}

theorem about_wordless {words : String} (hv : v.fits = true) :
    Breach.about v words = .error f ↔ v.writable = false ∧ f = .tooManyDigits :=
  (((Value.shown_shownIf v).map _).map _).error_iff hv

theorem wordless_kinds {ks : List Kind} (hv : v.fits = true) :
    (kinds ks).Wordless f v ↔ ¬ (kinds ks).Kept v ∧ v.writable = false ∧ f = .tooManyDigits := by
  have hrule : ruleBreach? (fun _ => true) (kinds ks) v =
      ((kinds ks).ownBreaches v).find? fun _ => true := rfl
  rw [Wordless, Kept, hrule, ownBreaches]
  split <;> simp [about_wordless hv]

theorem wordless_closed {names : List String} (hes : (Value.map es).fits = true) :
    (closed names).Wordless f (.map es) ↔
      (∃ e ∈ es, e.1.writable = false) ∧ f = .tooManyDigits := by
  have hmessage {keys : List Value} (hkeys : ∀ k ∈ keys, k ∈ es.map (·.1)) :
      Breach.message (unexpectedKeys keys) = .error f ↔
        (∃ k ∈ keys, k.writable = false) ∧ f = .tooManyDigits := by
    have hfits : ∀ k ∈ keys, k.fits = true := fun k hk => by
      obtain ⟨e, he, rfl⟩ := List.mem_map.mp (hkeys k hk)
      exact Value.fits_key hes e he
    rw [← unexpectedKeys_error_iff hfits, Breach.message]
    cases unexpectedKeys keys <;> simp [bind, Except.bind, pure, Except.pure]
  have hrule : ruleBreach? (fun _ => true) (closed names) (.map es) =
      ((closed names).ownBreaches (.map es)).find? fun _ => true := rfl
  rw [Wordless, hrule]
  simp only [ownBreaches]
  split
  next hempty =>
    rw [List.isEmpty_iff, List.filter_eq_nil_iff, List.forall_mem_map] at hempty
    refine iff_of_false (by simp) ?_
    rintro ⟨⟨⟨k, x⟩, he, hk⟩, -⟩
    have hextra := hempty _ he
    -- a text can be shown, so a key that cannot is none of the names
    cases k with
    | str s => cases hk
    | _ => exact hextra rfl
  next =>
    simp only [List.find?_cons, Option.some.injEq, hmessage fun k hk => (List.mem_filter.mp hk).1,
      List.mem_filter, List.mem_map]
    refine and_congr_left fun _ => ?_
    constructor
    · rintro ⟨k, ⟨⟨e, he, rfl⟩, -⟩, hk⟩
      exact ⟨e, he, hk⟩
    · rintro ⟨⟨k, x⟩, he, hk⟩
      refine ⟨k, ⟨⟨_, he, rfl⟩, ?_⟩, hk⟩
      cases k with
      | str s => cases hk
      | _ => rfl

/-- That a field is missing can always be told. -/
theorem not_wordless_required {names : List String} : ¬ (required names).Wordless f v := by
  intro h
  have hmem : (.error f : Breach) ∈ (required names).ownBreaches v :=
    List.mem_of_find?_eq_some h
  cases v with
  | map es =>
    obtain ⟨n, -, hn⟩ := List.mem_map.mp hmem
    cases hn
  | _ => cases hmem

theorem wordless_property {name : String} {rules : List Rule} :
    (properties [(name, rules)]).Wordless f (.map es) ↔
      ∃ x, Value.field? name es = some x ∧ Schema.Wordless f rules x := by
  simp [Wordless, property_breach_iff, Breach.within_error_iff, Schema.Wordless]

/-- The first item that is not accepted is the one that is told of. -/
theorem wordless_items {rules : List Rule} {xs : List Value} :
    (items rules).Wordless f (.list xs) ↔
      ∃ before x after, Value.items xs = before ++ x :: after ∧
        (∀ y ∈ before, accepts rules y = true) ∧ Schema.Wordless f rules x := by
  simp [Wordless, items_breach_iff, Breach.within_error_iff, Schema.Wordless]

end Rule

end PenPlotter
