import PenPlotter.Proofs.Schema.Forms
/-! # The first breach

The breach that decides over a value is that of the first rule it breaks, and the way to it goes through
the first part that is not accepted. A choice is refused as a whole, or for a fault in one of its branches.
-/
namespace PenPlotter

theorem Breach.within_error_iff {step : String} {b : Breach} {f : Fault} :
    b.within step = .error f ↔ b = .error f := by
  cases b <;> simp [within, bind, Except.bind, pure, Except.pure]

namespace Schema

/-! ## A breach that is found was looked for -/

/-- A sort of breaches that a breach belongs to wherever it is seen from. -/
def Placeless (wanted : Breach → Bool) : Prop :=
  ∀ (step : String) (b : Breach), wanted b = true → wanted (b.within step) = true

mutual
theorem ruleBreach?_wanted {wanted : Breach → Bool} (hwanted : Placeless wanted) :
    (rule : Rule) → ∀ (v : Value) (b : Breach), ruleBreach? wanted rule v = some b → wanted b = true
  | .properties ps => by
    intro v b hb
    cases v with
    | map es => exact propertyBreach?_wanted hwanted ps _ _ hb
    | _ => cases hb
  | .items rules => by
    intro v b hb
    cases v with
    | list xs =>
      obtain ⟨⟨x, i⟩, -, hbreach⟩ := List.exists_of_findSome?_eq_some hb
      obtain ⟨inner, hinner, rfl⟩ := Option.map_eq_some_iff.mp hbreach
      exact hwanted _ _ (breach?_wanted hwanted rules _ _ hinner)
    | _ => cases hb
  | .anyOf choices => fun _ _ hb => (Option.filter_eq_some_iff.mp hb).2
  | .kinds _ | .closed _ | .required _ | .enum _ | .const _ | .minimum _ | .maximum _ | .above _
  | .minItems _ | .maxItems _ | .unique | .minEntries _ | .maxEntries _ | .minLength _
  | .form _ => fun _ _ hb => List.find?_some hb
theorem breach?_wanted {wanted : Breach → Bool} (hwanted : Placeless wanted) :
    (rules : List Rule) → ∀ (v : Value) (b : Breach), breach? wanted rules v = some b → wanted b = true
  | [] => nofun
  | rule :: rules => by
    intro v b hb
    rw [breach?] at hb
    split at hb
    next hrule =>
      cases hb
      exact ruleBreach?_wanted hwanted rule _ _ hrule
    next => exact breach?_wanted hwanted rules _ _ hb
theorem propertyBreach?_wanted {wanted : Breach → Bool} (hwanted : Placeless wanted) :
    (ps : List (String × List Rule)) → ∀ (es : List (Value × Value)) (b : Breach),
    propertyBreach? wanted ps es = some b → wanted b = true
  | [] => nofun
  | (name, rules) :: rest => by
    intro es b hb
    rw [propertyBreach?] at hb
    split at hb
    next inner hfield =>
      cases hb
      obtain ⟨x, -, hinner⟩ := Option.bind_eq_some_iff.mp hfield
      exact hwanted _ _ (breach?_wanted hwanted rules _ _ hinner)
    next => exact propertyBreach?_wanted hwanted rest _ _ hb
end

variable {rule : Rule} {rules : List Rule} {v : Value} {b : Breach}

theorem placeless_fault : Placeless fun b => b matches .error _ := by
  intro step b h
  cases b with
  | error f => rfl
  | ok violation => cases h

/-! ## The way to the first breach -/

theorem firstBreach?_cons : firstBreach? (rule :: rules) v = some b ↔
    ruleBreach? (fun _ => true) rule v = some b ∨ rule.Kept v ∧ firstBreach? rules v = some b := by
  simp only [Rule.Kept, firstBreach?, breach?]
  cases ruleBreach? (fun _ => true) rule v <;> simp

theorem firstBreach?_of_kept (h : rule.Kept v) :
    firstBreach? (rule :: rules) v = firstBreach? rules v := by
  rw [firstBreach?, breach?, show ruleBreach? (fun _ => true) rule v = none from h]
  rfl

theorem firstBreach?_singleton : firstBreach? [rule] v = ruleBreach? (fun _ => true) rule v := by
  simp only [firstBreach?, breach?]
  cases ruleBreach? (fun _ => true) rule v <;> rfl

theorem property_breach_iff {name : String} {es : List (Value × Value)} :
    ruleBreach? (fun _ => true) (.properties [(name, rules)]) (.map es) = some b ↔
      ∃ x c, Value.field? name es = some x ∧ firstBreach? rules x = some c ∧ c.within name = b := by
  have hrule : ruleBreach? (fun _ => true) (.properties [(name, rules)]) (.map es) =
      propertyBreach? (fun _ => true) [(name, rules)] es := rfl
  rw [hrule, propertyBreach?]
  cases Value.field? name es with
  | none => simp [propertyBreach?]
  | some x =>
    simp only [Option.bind_some, Option.some.injEq, exists_and_left, exists_eq_left', firstBreach?]
    cases breach? (fun _ => true) rules x with
    | none => simp [propertyBreach?]
    | some c => simp [eq_comm]

/-- The first item that is not accepted is the one that is told of. -/
theorem items_breach_iff {xs : List Value} :
    ruleBreach? (fun _ => true) (.items rules) (.list xs) = some b ↔
      ∃ before x after c, Value.items xs = before ++ x :: after ∧
        (∀ y ∈ before, accepts rules y = true) ∧ firstBreach? rules x = some c ∧
        c.within (toString before.length) = b := by
  rw [ruleBreach?, List.findSome?_eq_some_iff, Value.items]
  generalize Value.detached (.list xs) = part
  have hbefore (ys : List Value) : (∀ p ∈ ys.zipIdx, (breach? (fun _ => true) rules (part p.1)).map
      (Breach.within (toString p.2)) = none) ↔ ∀ y ∈ ys.map part, accepts rules y = true := by
    simp only [Option.map_eq_none_iff, List.forall_mem_map, accepts, firstBreach?,
      Option.isNone_iff_eq_none]
    exact Rule.forall_mem_zipIdx (P := fun y => breach? (fun _ => true) rules (part y) = none)
  constructor
  · rintro ⟨told, ⟨x, i⟩, rest, hsplit, hx, hnone⟩
    obtain ⟨before, behind, rfl, rfl, hbehind⟩ := List.zipIdx_eq_append_iff.mp hsplit
    obtain ⟨y, after, rfl, hy, -⟩ := List.zipIdx_eq_cons_iff.mp hbehind.symm
    cases hy
    obtain ⟨c, hc, rfl⟩ := Option.map_eq_some_iff.mp hx
    exact ⟨before.map part, part x, after.map part, c, by simp, (hbefore before).mp hnone, hc, by simp⟩
  · rintro ⟨before, x, after, c, hitems, haccepts, hc, rfl⟩
    obtain ⟨before, behind, rfl, rfl, hbehind⟩ := List.map_eq_append_iff.mp hitems
    obtain ⟨x, after, rfl, rfl, rfl⟩ := List.map_eq_cons_iff.mp hbehind
    refine ⟨before.zipIdx, (x, before.length), after.zipIdx (before.length + 1), ?_, ?_,
      (hbefore before).mpr haccepts⟩
    · simp [List.zipIdx_append]
    · rw [List.length_map]
      exact Option.map_eq_some_iff.mpr ⟨c, hc, rfl⟩

theorem noChoice_eq {s : List Char} (hs : v.shown = .ok s) : noChoice v =
    .ok { path := [], message := s ++ " is not valid under any of the given schemas".toList } := by
  rw [noChoice, Breach.about, hs]
  rfl

/-- A choice that is told to be broken is refused as a whole: a fault in a branch would stand in place
of that. -/
theorem choiceBreach?_ok {choices : List Schema} {violation : Violation}
    (hb : choiceBreach? choices v = some (.ok violation)) : noChoice v = .ok violation := by
  induction choices with
  | nil => exact Option.some.inj hb
  | cons s choices ih =>
    rw [choiceBreach?] at hb
    split at hb
    next => cases hb
    next =>
      split at hb
      next hfault =>
        cases hb
        cases breach?_wanted placeless_fault s v _ hfault
      next => exact ih hb

end Schema

end PenPlotter
