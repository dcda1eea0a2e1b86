import PenPlotter.Proofs.Schema.Kept
import PenPlotter.Proofs.Schema.Told
/-! # Forms that schemas describe

What the rules of a schema come to when they stand together: an integer from a bound on or between two
bounds, a number of seconds, a record of named parts, and a choice between records. What is an integer
is told by the number that a value is, in form or as a double without a fraction. A choice is tried
branch by branch, and the breaches of a branch that is passed over must all be told.
-/
namespace PenPlotter

/-! ## Numbers -/

namespace Value
open Double

def IsRational (q : ℚ) : Value → Prop
  | .int i => (i : ℚ) = q
  | .double x => x.isFinite = true ∧ x.exact = q
  | _ => False

variable {v : Value} {q : ℚ}

theorem compareTo_of_isRational (h : v.IsRational q) (n : ℤ) :
    v.compareTo n = some (compare q (n : ℚ)) := by
  cases v with
  | int i =>
    obtain rfl : (i : ℚ) = q := h
    rw [compareTo, ← cmp_eq_compare, ← cmp_eq_compare, Int.cast_strictMono.cmp_map_eq]
  | double x =>
    obtain ⟨hx, rfl⟩ := h
    cases x with
    | finite s m e hc => exact compareInt_eq hc n
    | infinite s => cases hx
    | nan p => cases hx
  | _ => exact h.elim

theorem number_of_isRational (h : v.IsRational q) : Kind.number.holds v = true := by
  cases v with
  | int i => rfl
  | double x => rfl
  | _ => exact h.elim

theorem integer_iff : Kind.integer.holds v = true ↔ ∃ i : ℤ, v.IsRational i := by
  cases v with
  | int i => exact iff_of_true rfl ⟨i, rfl⟩
  | double x =>
    cases x with
    | finite s m e hc =>
      constructor
      · intro h
        obtain ⟨i, -, hi⟩ := truncate_exact hc h
        exact ⟨i, rfl, hi⟩
      · rintro ⟨i, -, hi⟩
        exact isIntegral_of_exact hc hi
    | infinite s => simp [Kind.holds, isIntegral, IsRational, Double.isFinite]
    | nan p => simp [Kind.holds, isIntegral, IsRational, Double.isFinite]
  | _ => simp [Kind.holds, IsRational]

theorem IsRational.unique {p : ℚ} (hp : v.IsRational p) (hq : v.IsRational q) : p = q := by
  cases v with
  | int i => exact Eq.trans (Eq.symm hp) hq
  | double x => exact hp.2.symm.trans hq.2
  | _ => exact hp.elim

theorem toInt_of_isRational {i : ℤ} (h : v.IsRational i) : v.toInt = .ok i := by
  cases v with
  | int j =>
    obtain rfl : j = i := Int.cast_injective h
    rfl
  | double x =>
    cases x with
    | finite s m e hc =>
      obtain ⟨j, htruncate, hj⟩ := Double.truncate_exact hc (Double.isIntegral_of_exact hc h.2)
      obtain rfl : j = i := Int.cast_injective (hj.symm.trans h.2)
      simp [toInt, htruncate]
    | infinite s => cases h.1
    | nan p => cases h.1
  | _ => exact h.elim

theorem equal_int_iff {n : ℤ} : v.equal (.int n) = true ↔ v.IsRational n := by
  cases v with
  | int i => simp [equal, same, IsRational]
  | double x =>
    cases x with
    | finite s m e hc =>
      simp only [equal, same, compareInt_eq hc, beq_iff_eq, Option.some.injEq, compare_eq_iff_eq]
      simp [IsRational, Double.isFinite]
    | infinite s => cases s <;> simp [equal, same, compareInt, IsRational, Double.isFinite]
    | nan p => simp [equal, same, compareInt, IsRational, Double.isFinite]
  | _ => simp [equal, same, IsRational]

theorem equal_double_iff {s : Bool} {m : ℕ} {e : ℤ} (hc : Canonical m e) :
    v.equal (.double (.finite s m e hc)) = true ↔ v.IsRational (Double.finite s m e hc).exact := by
  cases v with
  | int i =>
    simp only [equal, same, compareInt_eq hc, beq_iff_eq, Option.some.injEq, compare_eq_iff_eq]
    exact eq_comm
  | double x =>
    cases x with
    | finite t n f hd =>
      have hsame (h : Double.finite t n f hd = .finite s m e hc) :
          (Double.finite t n f hd).exact = (Double.finite s m e hc).exact := by rw [h]
      simp only [equal, same, Bool.or_eq_true, beq_iff_eq, numEq_finite hd hc]
      simpa [IsRational, Double.isFinite] using hsame
    | infinite t => simp [equal, same, numEq, IsRational, Double.isFinite]
    | nan p => simp [equal, same, numEq, IsRational, Double.isFinite]
  | _ => simp [equal, same, IsRational]

/-- A number that is not zero or below. A nan passes for one. -/
inductive IsSeconds : Value → Prop
  | rational {v : Value} {q : ℚ} (hq : 0 < q) (hv : v.IsRational q) : IsSeconds v
  | infinite : IsSeconds (.double (.infinite false))
  | nan (p : ℕ) : IsSeconds (.double (.nan p))

def IsWithin (lo hi : ℤ) (v : Value) : Prop := ∃ i : ℤ, v.IsRational i ∧ lo ≤ i ∧ i ≤ hi

end Value

namespace Rule
variable {v : Value} {q : ℚ} {n : ℤ}

theorem minimum_iff (h : v.IsRational q) : (minimum n).Kept v ↔ (n : ℚ) ≤ q := by
  rw [kept_minimum, Value.compareTo_of_isRational h, Ne, Option.some.injEq, compare_lt_iff_lt, not_lt]
  simp [Value.number_of_isRational h]

theorem maximum_iff (h : v.IsRational q) : (maximum n).Kept v ↔ q ≤ n := by
  rw [kept_maximum, Value.compareTo_of_isRational h, Ne, Option.some.injEq, compare_gt_iff_gt, not_lt]
  simp [Value.number_of_isRational h]

theorem above_iff (h : v.IsRational q) : (above n).Kept v ↔ (n : ℚ) < q := by
  refine (kept_of_own rfl).trans (breaches_if.trans ?_)
  rw [Value.compareTo_of_isRational h, Value.number_of_isRational h]
  simp only [Bool.true_and, Bool.or_eq_true, beq_iff_eq, Option.some.injEq, compare_lt_iff_lt,
    compare_eq_iff_eq, not_or]
  constructor
  · rintro ⟨hlt, hne⟩
    exact lt_of_le_of_ne (not_lt.mp hlt) fun heq => hne heq.symm
  · intro hlt
    exact ⟨hlt.le.not_gt, hlt.ne'⟩

/-- Bounds are for numbers only. -/
theorem kept_of_null {rule : Rule} (h : rule = minimum n ∨ rule = maximum n ∨ rule = above n) :
    rule.Kept .null := by
  rcases h with rfl | rfl | rfl <;> rfl

end Rule

namespace Schema
variable {v : Value}

theorem integerFrom_iff {lo : ℤ} :
    accepts [.kinds [.integer], .minimum lo] v = true ↔ ∃ i : ℤ, v.IsRational i ∧ lo ≤ i := by
  rw [accepts_cons, accepts_cons, Rule.kept_kinds]
  simp only [List.mem_singleton, exists_eq_left, Value.integer_iff, accepts_nil, and_true]
  constructor
  · rintro ⟨⟨i, hi⟩, hlo⟩
    exact ⟨i, hi, by exact_mod_cast (Rule.minimum_iff hi).mp hlo⟩
  · rintro ⟨i, hi, hlo⟩
    exact ⟨⟨i, hi⟩, (Rule.minimum_iff hi).mpr (by exact_mod_cast hlo)⟩

theorem within_iff {lo hi : ℤ} :
    accepts [.kinds [.integer], .minimum lo, .maximum hi] v = true ↔ v.IsWithin lo hi := by
  rw [accepts_cons, accepts_cons, accepts_cons, Rule.kept_kinds]
  simp only [List.mem_singleton, exists_eq_left, Value.integer_iff, accepts_nil, and_true]
  constructor
  · rintro ⟨⟨i, hi⟩, hmin, hmax⟩
    exact ⟨i, hi, by exact_mod_cast (Rule.minimum_iff hi).mp hmin,
      by exact_mod_cast (Rule.maximum_iff hi).mp hmax⟩
  · rintro ⟨i, hi, hmin, hmax⟩
    exact ⟨⟨i, hi⟩, (Rule.minimum_iff hi).mpr (by exact_mod_cast hmin),
      (Rule.maximum_iff hi).mpr (by exact_mod_cast hmax)⟩

theorem withinOrNull_iff {lo hi : ℤ} :
    accepts [.kinds [.integer, .null], .minimum lo, .maximum hi] v = true ↔
      v = .null ∨ v.IsWithin lo hi := by
  rw [← within_iff, accepts_cons, accepts_cons, accepts_cons, accepts_cons, accepts_cons,
    accepts_cons, Rule.kept_kinds, Rule.kept_kinds]
  cases v with
  | null => exact iff_of_true ⟨⟨.null, by simp, rfl⟩, Rule.kept_of_null (.inl rfl),
      Rule.kept_of_null (.inr (.inl rfl)), accepts_nil⟩ (.inl rfl)
  | _ => simp [Kind.holds]

theorem seconds_iff : accepts [.kinds [.number], .above 0] v = true ↔ v.IsSeconds := by
  rw [accepts_cons, accepts_cons, Rule.kept_kinds]
  simp only [List.mem_singleton, exists_eq_left, accepts_nil, and_true]
  have habove {q : ℚ} (hv : v.IsRational q) : (Rule.above 0).Kept v ↔ 0 < q := by
    rw [Rule.above_iff hv, Int.cast_zero]
  constructor
  · rintro ⟨hnumber, hkept⟩
    cases v with
    | int i => exact .rational ((habove rfl).mp hkept) rfl
    | double x =>
      cases x with
      | finite s m e hc => exact .rational ((habove ⟨rfl, rfl⟩).mp hkept) ⟨rfl, rfl⟩
      | infinite s =>
        cases s with
        | false => exact .infinite
        | true => cases hkept
      | nan p => exact .nan p
    | _ => cases hnumber
  · intro h
    cases h with
    | rational hq hv => exact ⟨Value.number_of_isRational hv, (habove hv).mpr hq⟩
    | infinite => exact ⟨rfl, rfl⟩
    | nan p => exact ⟨rfl, rfl⟩

theorem secondsOrNull_iff :
    accepts [.kinds [.number, .null], .above 0] v = true ↔ v = .null ∨ v.IsSeconds := by
  rw [← seconds_iff, accepts_cons, accepts_cons, accepts_cons, accepts_cons, Rule.kept_kinds,
    Rule.kept_kinds]
  cases v with
  | null => exact iff_of_true ⟨⟨.null, by simp, rfl⟩, Rule.kept_of_null (.inr (.inr rfl)),
      accepts_nil⟩ (.inl rfl)
  | _ => simp [Kind.holds]

/-! ## Records -/

/-- A mapping of named parts. Some must be there, and each that is there has its form. -/
inductive Record (needed : List String) (parts : List (String × (Value → Prop))) : Value → Prop
  | intro {es : List (Value × Value)} (hkeys : ∀ e ∈ es, ∃ p ∈ parts, e.1 = .str p.1)
      (hneeded : ∀ name ∈ needed, ∃ x, Value.field? name es = some x)
      (hparts : ∀ p ∈ parts, ∀ x, Value.field? p.1 es = some x → p.2 x) :
      Record needed parts (.map es)

/-- The schemas of properties accept the forms of parts, under the same names. -/
abbrev Describes (ps : List (String × Schema)) (parts : List (String × (Value → Prop))) : Prop :=
  List.Forall₂ (fun p part => p.1 = part.1 ∧ ∀ x, accepts p.2 x = true ↔ part.2 x) ps parts

variable {names needed : List String} {ps : List (String × Schema)}
  {parts : List (String × (Value → Prop))}

theorem closed_iff (hnames : names = parts.map (·.1)) {es : List (Value × Value)} :
    (Rule.closed names).Kept (.map es) ↔ ∀ e ∈ es, ∃ p ∈ parts, e.1 = .str p.1 := by
  rw [Rule.kept_closed, hnames]
  exact forall₂_congr fun e _ => by simp only [List.mem_map, exists_exists_and_eq_and]

theorem Describes.properties_iff (h : Describes ps parts) {es : List (Value × Value)} :
    (Rule.properties ps).Kept (.map es) ↔
      ∀ p ∈ parts, ∀ x, Value.field? p.1 es = some x → p.2 x := by
  rw [Rule.kept_properties]
  induction h with
  | nil => simp
  | cons hpart _ ih =>
    rw [List.forall_mem_cons, List.forall_mem_cons, ih, hpart.1]
    exact and_congr_left fun _ => forall₂_congr fun x _ => hpart.2 x

theorem Describes.record_iff (h : Describes ps parts) (hnames : names = parts.map (·.1)) :
    accepts [.kinds [.object], .closed names, .required needed, .properties ps] v = true ↔
      Record needed parts v := by
  constructor
  · intro hv
    obtain ⟨es, rfl⟩ := object_of_accepts hv
    obtain ⟨-, hclosed, hneeded, hproperties, -⟩ : _ ∧ _ ∧ _ ∧ _ ∧ _ := by
      simpa only [accepts_cons] using hv
    exact .intro ((closed_iff hnames).mp hclosed) (Rule.kept_required.mp hneeded)
      (h.properties_iff.mp hproperties)
  · rintro ⟨hkeys, hneeded, hparts⟩
    simp only [accepts_cons]
    exact ⟨rfl, (closed_iff hnames).mpr hkeys, Rule.kept_required.mpr hneeded, h.properties_iff.mpr hparts,
      accepts_nil⟩

/-- Where no part is needed, the schema does not speak of it. -/
theorem Describes.free_record_iff (h : Describes ps parts) (hnames : names = parts.map (·.1)) :
    accepts [.kinds [.object], .closed names, .properties ps] v = true ↔ Record [] parts v := by
  rw [← h.record_iff hnames]
  simp only [accepts_cons]
  refine and_congr_right fun hobject => and_congr_right fun _ => (and_iff_right ?_).symm
  obtain ⟨es, rfl⟩ : ∃ es, v = .map es := object_of_accepts (accepts_cons.mpr ⟨hobject, accepts_nil⟩)
  exact Rule.kept_required.mpr (by simp)

end Schema

/-! ## Choices -/

def Rule.Faultless (rule : Rule) (v : Value) : Prop :=
  Schema.ruleBreach? (fun b => b matches .error _) rule v = none

def Schema.Faultless (s : Schema) (v : Value) : Prop :=
  breach? (fun b => b matches .error _) s v = none

namespace Schema
variable {rule : Rule} {rules : List Rule} {v : Value}

theorem faultless_nil : Faultless [] v := rfl

theorem faultless_cons : Faultless (rule :: rules) v ↔ rule.Faultless v ∧ Faultless rules v := by
  simp only [Faultless, Rule.Faultless, breach?]
  cases ruleBreach? (fun b => b matches .error _) rule v <;> simp

end Schema

namespace Rule
open Schema
variable {rule : Rule} {v : Value}

theorem faultless_of_told (hown : rule.own = true) (h : ∀ b ∈ rule.ownBreaches v, ToldIf True b) :
    rule.Faultless v := by
  have hfind : (rule.ownBreaches v).find? (fun b => b matches .error _) = none := by
    rw [List.find?_eq_none]
    intro b hb
    obtain ⟨violation, rfl⟩ := (h b hb).exists_ok trivial
    exact Bool.false_ne_true
  cases rule with
  | properties _ | items _ | anyOf _ => cases hown
  | _ => exact hfind

theorem faultless_of_kept (hown : rule.own = true) (h : rule.Kept v) : rule.Faultless v :=
  faultless_of_told hown (by simp [(kept_of_own hown).mp h])

/-- Keys that can be shown can be told to be unexpected. -/
theorem faultless_closed {names : List String} {es : List (Value × Value)}
    (h : ∀ e ∈ es, e.1.writable = true ∧ e.1.fits = true) : (closed names).Faultless (.map es) := by
  refine faultless_of_told rfl fun b hb => ?_
  simp only [ownBreaches] at hb
  split at hb
  · cases hb
  · rw [List.mem_singleton.mp hb]
    refine Breach.message_toldIf (unexpectedKeys_toldIf fun k hk _ => ?_)
    obtain ⟨e, he, rfl⟩ := List.mem_map.mp (List.mem_filter.mp hk).1
    exact h e he

theorem faultless_required {names : List String} {es : List (Value × Value)} :
    (required names).Faultless (.map es) := by
  refine faultless_of_told rfl fun b hb => ?_
  obtain ⟨name, -, rfl⟩ := List.mem_map.mp hb
  exact .ok _

theorem faultless_const {name : String} : (const (.str name)).Faultless v := by
  refine faultless_of_told rfl fun b hb => ?_
  rw [ownBreaches] at hb
  split at hb
  · cases hb
  · rw [List.mem_singleton.mp hb]
    exact Breach.message_toldIf ((Value.shown_toldIf fun _ => ⟨rfl, rfl⟩).map _)

theorem faultless_properties {ps : List (String × List Rule)} {es : List (Value × Value)} :
    (properties ps).Faultless (.map es) ↔
      ∀ p ∈ ps, ∀ x, Value.field? p.1 es = some x → Schema.Faultless p.2 x := by
  change propertyBreach? (fun b => b matches .error _) ps es = none ↔ _
  induction ps with
  | nil => simp [propertyBreach?]
  | cons p ps ih =>
    rw [List.forall_mem_cons, ← ih, propertyBreach?]
    cases Value.field? p.1 es with
    | none => simp
    | some x =>
      simp only [Option.bind_some, Option.some.injEq, forall_eq', Schema.Faultless]
      cases breach? (fun b => b matches .error _) p.2 x <;> simp

/-- A choice is kept by what a branch accepts, unless the breach of a branch before it is a fault. -/
theorem kept_choice (before : List Schema) {after : List Schema} {s : Schema}
    (hbefore : ∀ t ∈ before, Schema.Faultless t v) (h : accepts s v = true) :
    (anyOf (before ++ s :: after)).Kept v := by
  have hnone : choiceBreach? (before ++ s :: after) v = none := by
    induction before with
    | nil =>
      rw [accepts, firstBreach?, Option.isNone_iff_eq_none] at h
      rw [List.nil_append, choiceBreach?, h]
    | cons t before ih =>
      rw [List.forall_mem_cons] at hbefore
      rw [List.cons_append, choiceBreach?]
      split
      next => rfl
      next =>
        split
        next hfault => cases hfault.symm.trans hbefore.1
        next => exact ih hbefore.2
  rw [Kept, ruleBreach?, hnone]
  rfl

end Rule

end PenPlotter
