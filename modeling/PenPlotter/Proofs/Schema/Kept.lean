import PenPlotter.Proofs.Number.Exact
import PenPlotter.Schema.Violation
/-! # What schemas ask for

A value is accepted where it keeps every rule of the schema. Each kind of rule is put in terms of the
value: a mapping keeps the rules of its properties where its fields are accepted, a list those of its
items where its items are, and a choice is kept where one of its branches accepts the value.
-/
namespace PenPlotter

def Rule.Kept (rule : Rule) (v : Value) : Prop := Schema.ruleBreach? (fun _ => true) rule v = none

namespace Schema
variable {rule : Rule} {rules : List Rule} {v : Value}

theorem accepts_nil : accepts [] v = true := rfl

theorem accepts_cons :
    accepts (rule :: rules) v = true ↔ rule.Kept v ∧ accepts rules v = true := by
  simp only [accepts, firstBreach?, breach?, Rule.Kept, Option.isNone_iff_eq_none]
  cases ruleBreach? (fun _ => true) rule v <;> simp

theorem check_eq_ok {role : DocumentRole} {source : String} {u : Unit} :
    check rules role source v = .ok u ↔ accepts rules v = true := by
  simp only [check, accepts, Option.isNone_iff_eq_none]
  rcases firstBreach? rules v with _ | _ | violation <;> simp

end Schema

namespace Rule
open Schema
variable {v : Value}

/-- A rule that looks at the value alone. -/
def own : Rule → Bool
  | .properties _ | .items _ | .anyOf _ => false
  | _ => true

theorem kept_of_own {rule : Rule} (h : rule.own = true) :
    rule.Kept v ↔ rule.ownBreaches v = [] := by
  have hfind {bs : List Breach} : bs.find? (fun _ => true) = none ↔ bs = [] := by
    cases bs <;> simp
  cases rule with
  | properties _ | items _ | anyOf _ => cases h
  | _ => exact hfind

theorem breaches_if_not {p : Prop} [Decidable p] {b : Breach} :
    (if p then [] else [b]) = [] ↔ p := by
  split <;> simp_all

theorem breaches_if {p : Prop} [Decidable p] {b : Breach} :
    (if p then [b] else []) = [] ↔ ¬ p := by
  split <;> simp_all

theorem kept_kinds {ks : List Kind} : (kinds ks).Kept v ↔ ∃ k ∈ ks, k.holds v = true :=
  (kept_of_own rfl).trans (breaches_if_not.trans List.any_eq_true)

theorem kept_enum {choices : List Value} :
    (enum choices).Kept v ↔ ∃ c ∈ choices, v.equal c = true :=
  (kept_of_own rfl).trans (breaches_if_not.trans List.any_eq_true)

theorem kept_const {choice : Value} : (const choice).Kept v ↔ v.equal choice = true :=
  (kept_of_own rfl).trans breaches_if_not

theorem kept_closed {names : List String} {es : List (Value × Value)} :
    (closed names).Kept (.map es) ↔ ∀ e ∈ es, ∃ n ∈ names, e.1 = .str n := by
  refine (kept_of_own rfl).trans (breaches_if_not.trans ?_)
  rw [List.isEmpty_iff, List.filter_eq_nil_iff, List.forall_mem_map]
  refine forall₂_congr fun e _ => ?_
  rcases e with ⟨k, x⟩
  cases k <;> simp

/-- A mapping that keeps a closed rule has no field of another name. -/
theorem field?_of_closed {names : List String} {es : List (Value × Value)}
    (h : (closed names).Kept (.map es)) {name : String} (hname : name ∉ names) :
    Value.field? name es = none := by
  have hno : ∀ e ∈ es, ¬ e.1.isText name = true := by
    intro e he htext
    obtain ⟨n, hn, hkey⟩ := kept_closed.mp h e he
    rw [hkey, Value.isText, beq_iff_eq] at htext
    exact hname (htext ▸ hn)
  rw [Value.field?, Value.lookup?, List.find?_eq_none.mpr hno]
  rfl

theorem kept_required {names : List String} {es : List (Value × Value)} :
    (required names).Kept (.map es) ↔ ∀ n ∈ names, ∃ x, Value.field? n es = some x := by
  have hmissing (n : String) :
      (Value.lookup? n es).isNone = false ↔ ∃ x, Value.field? n es = some x := by
    simp only [Value.field?]
    cases Value.lookup? n es <;> simp
  refine (kept_of_own rfl).trans (List.map_eq_nil_iff.trans ?_)
  simp only [List.filter_eq_nil_iff, Bool.not_eq_true, hmissing]

theorem kept_minimum {n : ℤ} :
    (minimum n).Kept v ↔ (Kind.number.holds v = true → v.compareTo n ≠ some .lt) := by
  refine (kept_of_own rfl).trans (breaches_if.trans ?_)
  simp

theorem kept_maximum {n : ℤ} :
    (maximum n).Kept v ↔ (Kind.number.holds v = true → v.compareTo n ≠ some .gt) := by
  refine (kept_of_own rfl).trans (breaches_if.trans ?_)
  simp

theorem kept_minItems {n : ℕ} {xs : List Value} : (minItems n).Kept (.list xs) ↔ n ≤ xs.length :=
  (kept_of_own rfl).trans (breaches_if.trans not_lt)

theorem kept_maxItems {n : ℕ} {xs : List Value} : (maxItems n).Kept (.list xs) ↔ xs.length ≤ n :=
  (kept_of_own rfl).trans (breaches_if.trans not_lt)

theorem kept_unique {xs : List Value} : unique.Kept (.list xs) ↔ Value.unique xs = .ok true := by
  refine (kept_of_own rfl).trans ?_
  rw [ownBreaches]
  rcases Value.unique xs with f | b
  · simp
  · cases b <;> simp

theorem kept_minEntries {n : ℕ} {es : List (Value × Value)} :
    (minEntries n).Kept (.map es) ↔ n ≤ es.length :=
  (kept_of_own rfl).trans (breaches_if.trans not_lt)

theorem kept_maxEntries {n : ℕ} {es : List (Value × Value)} :
    (maxEntries n).Kept (.map es) ↔ es.length ≤ n :=
  (kept_of_own rfl).trans (breaches_if.trans not_lt)

/-- The rules of properties are kept by a mapping whose fields are accepted. -/
theorem kept_properties {ps : List (String × List Rule)} {es : List (Value × Value)} :
    (properties ps).Kept (.map es) ↔
      ∀ p ∈ ps, ∀ x, Value.field? p.1 es = some x → accepts p.2 x = true := by
  change propertyBreach? (fun _ => true) ps es = none ↔ _
  induction ps with
  | nil => simp [propertyBreach?]
  | cons p ps ih =>
    rw [List.forall_mem_cons, ← ih, propertyBreach?]
    cases Value.field? p.1 es with
    | none => simp
    | some x =>
      simp only [Option.bind_some, Option.some.injEq, forall_eq', accepts, firstBreach?]
      cases breach? (fun _ => true) p.2 x <;> simp

theorem forall_mem_zipIdx {α : Type} {P : α → Prop} {xs : List α} :
    (∀ p ∈ xs.zipIdx, P p.1) ↔ ∀ x ∈ xs, P x := by
  rw [← List.forall_mem_map (f := Prod.fst), List.zipIdx_map_fst]

/-- The rules of items are kept by a list whose items are accepted. -/
theorem kept_items {rules : List Rule} {xs : List Value} :
    (items rules).Kept (.list xs) ↔ ∀ x ∈ Value.items xs, accepts rules x = true := by
  simp only [Kept, ruleBreach?, Value.items, List.findSome?_eq_none_iff, List.forall_mem_map,
    Option.map_eq_none_iff, accepts, firstBreach?, Option.isNone_iff_eq_none]
  exact forall_mem_zipIdx
    (P := fun x => breach? (fun _ => true) rules (Value.detached (.list xs) x) = none)

theorem choice_of_kept {choices : List (List Rule)} (h : (anyOf choices).Kept v) :
    choiceBreach? choices v = none := by
  change (choiceBreach? choices v).filter (fun _ => true) = none at h
  cases hc : choiceBreach? choices v with
  | none => rfl
  | some b =>
    rw [hc] at h
    cases h

/-- A choice that is kept has a branch that accepts the value. -/
theorem kept_anyOf {choices : List (List Rule)} (h : (anyOf choices).Kept v) :
    ∃ rules ∈ choices, accepts rules v = true := by
  have hnone := choice_of_kept h
  clear h
  induction choices with
  | nil => simp [choiceBreach?] at hnone
  | cons rules choices ih =>
    rw [choiceBreach?] at hnone
    cases hb : breach? (fun _ => true) rules v with
    | none => exact ⟨rules, List.mem_cons_self, by simp [accepts, firstBreach?, hb]⟩
    | some b =>
      simp only [hb] at hnone
      split at hnone
      · cases hnone
      · obtain ⟨branch, hmem, haccepts⟩ := ih hnone
        exact ⟨branch, List.mem_cons_of_mem rules hmem, haccepts⟩

end Rule

namespace Schema
variable {s : Schema}

def fields : Schema → List (String × Schema)
  | [] => []
  | .properties ps :: rules => ps ++ fields rules
  | _ :: rules => fields rules

def needed : Schema → List String
  | [] => []
  | .required names :: rules => names ++ needed rules
  | _ :: rules => needed rules

theorem accepts_field {es : List (Value × Value)} (h : accepts s (.map es) = true) {name : String}
    {t : Schema} (ht : (name, t) ∈ s.fields) {x : Value} (hx : Value.field? name es = some x) :
    accepts t x = true := by
  induction s with
  | nil => cases ht
  | cons rule rules ih =>
    obtain ⟨hrule, hrules⟩ := accepts_cons.mp h
    cases rule with
    | properties ps =>
      rcases List.mem_append.mp ht with ht | ht
      · exact Rule.kept_properties.mp hrule _ ht x hx
      · exact ih hrules ht
    | _ => exact ih hrules ht

theorem accepts_needed {es : List (Value × Value)} (h : accepts s (.map es) = true) {name : String}
    (hn : name ∈ s.needed) : ∃ x, Value.field? name es = some x := by
  induction s with
  | nil => cases hn
  | cons rule rules ih =>
    obtain ⟨hrule, hrules⟩ := accepts_cons.mp h
    cases rule with
    | required names =>
      rcases List.mem_append.mp hn with hn | hn
      · exact Rule.kept_required.mp hrule _ hn
      · exact ih hrules hn
    | _ => exact ih hrules hn

def each : Schema → List Schema
  | [] => []
  | .items t :: rules => t :: each rules
  | _ :: rules => each rules

theorem accepts_item {xs : List Value} (h : accepts s (.list xs) = true) {t : Schema}
    (ht : t ∈ s.each) : ∀ x ∈ Value.items xs, accepts t x = true := by
  induction s with
  | nil => cases ht
  | cons rule rules ih =>
    obtain ⟨hrule, hrules⟩ := accepts_cons.mp h
    cases rule with
    | items t' =>
      rcases List.mem_cons.mp ht with rfl | ht
      · exact Rule.kept_items.mp hrule
      · exact ih hrules ht
    | _ => exact ih hrules ht

theorem accepts_kind {k : Kind} {v : Value} : accepts [.kinds [k]] v = true ↔ k.holds v = true := by
  rw [accepts_cons, Rule.kept_kinds]
  simp [accepts_nil]

theorem object_of_accepts {rules : List Rule} {v : Value}
    (h : accepts (.kinds [.object] :: rules) v = true) : ∃ es, v = .map es := by
  obtain ⟨k, hk, hholds⟩ := Rule.kept_kinds.mp (accepts_cons.mp h).1
  rw [List.mem_singleton.mp hk] at hholds
  cases v with
  | map es => exact ⟨es, rfl⟩
  | _ => cases hholds

theorem array_of_accepts {rules : List Rule} {v : Value}
    (h : accepts (.kinds [.array] :: rules) v = true) : ∃ xs, v = .list xs := by
  obtain ⟨k, hk, hholds⟩ := Rule.kept_kinds.mp (accepts_cons.mp h).1
  rw [List.mem_singleton.mp hk] at hholds
  cases v with
  | list xs => exact ⟨xs, rfl⟩
  | _ => cases hholds

end Schema

namespace Value
open Double

theorem lookup?_entries (name : String) (es : List (Value × Value)) :
    lookup? name (entries es) = field? name es := by
  simp only [lookup?, field?, entries, List.find?_map, Option.map_map]
  rfl

theorem eq_str_of_equal {v : Value} {s : String} (h : v.equal (.str s) = true) : v = .str s := by
  cases v <;> simp_all [equal, same]

/-- A value that is an integer to schemas compares as the integer that it is brought to. -/
theorem integer_of_holds {v : Value} (h : Kind.integer.holds v = true) :
    ∃ i, v.toInt = .ok i ∧ ∀ n, v.compareTo n = some (compare i n) := by
  cases v with
  | int i => exact ⟨i, rfl, fun n => rfl⟩
  | double x =>
    cases x with
    | finite s m e hc =>
      obtain ⟨i, htrunc, hexact⟩ := truncate_exact (s := s) hc h
      refine ⟨i, by simp [toInt, htrunc], fun n => ?_⟩
      rw [compareTo, compareInt_eq hc, hexact, ← cmp_eq_compare, ← cmp_eq_compare,
        Int.cast_strictMono.cmp_map_eq]
    | infinite s => cases h
    | nan p => cases h
  | _ => cases h

/-- An integer within bounds, as schemas ask for it. -/
theorem toInt_of_accepts {v : Value} {ks : List Kind} {lo hi : ℤ}
    (hks : ∀ k ∈ ks, k = .integer ∨ k = .null)
    (h : Schema.accepts [.kinds ks, .minimum lo, .maximum hi] v = true) :
    v = .null ∨ ∃ i, v.toInt = .ok i ∧ lo ≤ i ∧ i ≤ hi := by
  simp only [Schema.accepts_cons, Schema.accepts_nil, Rule.kept_kinds, Rule.kept_minimum,
    Rule.kept_maximum, and_true] at h
  obtain ⟨⟨k, hk, hholds⟩, hmin, hmax⟩ := h
  rcases hks k hk with rfl | rfl
  · right
    obtain ⟨i, htoInt, hcompare⟩ := integer_of_holds hholds
    have hnumber : Kind.number.holds v = true := by
      cases v <;> first | rfl | cases hholds
    have hlo := hmin hnumber
    have hhi := hmax hnumber
    rw [hcompare, Ne, Option.some.injEq, compare_lt_iff_lt, not_lt] at hlo
    rw [hcompare, Ne, Option.some.injEq, compare_gt_iff_gt, not_lt] at hhi
    exact ⟨i, htoInt, hlo, hhi⟩
  · left
    cases v <;> first | rfl | cases hholds

end Value

end PenPlotter
