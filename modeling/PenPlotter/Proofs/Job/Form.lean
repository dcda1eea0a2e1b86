import PenPlotter.Job.Load
import PenPlotter.Proofs.Schema.Wordless
/-! # The form of jobs

A job is a list of commands by name, with a number, or with pairs of numbers. The schema accepts this
form and no other, with any number where a number is asked for, nan and the infinite ones among them.
-/
namespace PenPlotter.Job
open Schema

/-! ## Forms -/

def IsFinite : Value → Prop
  | .int _ => True
  | .double x => x.isFinite = true
  | _ => False

/-- An integer, in form or in value, that is not below zero. -/
def IsPen : Value → Prop
  | .int i => 0 ≤ i
  | .double x => x.isFinite = true ∧ ∃ n : ℕ, x.exact = n
  | _ => False

inductive PairForm (number : Value → Prop) : Value → Prop
  | pair {xs : List Value} {x y : Value} (hxs : Value.items xs = [x, y]) (hx : number x)
      (hy : number y) : PairForm number (.list xs)

inductive NamedForm (number : Value → Prop) : List (Value × Value) → Prop
  | selectPen {v : Value} (hv : IsPen v) : NamedForm number [(.str "select_pen", v)]
  | velocity {v : Value} (hv : number v) : NamedForm number [(.str "velocity", v)]
  | plot {xs : List Value} (hxs : xs ≠ []) (hpairs : ∀ v ∈ Value.items xs, PairForm number v) :
      NamedForm number [(.str "plot_absolute", .list xs)]

inductive CommandForm (number : Value → Prop) : Value → Prop
  | bare {name : String} (hname : name ∈ ["default_settings", "initialize", "pen_up", "pen_down"]) :
      CommandForm number (.str name)
  | named {es : List (Value × Value)} (hes : NamedForm number (Value.entries es)) :
      CommandForm number (.map es)

/-- A mapping with no other key than that of the commands, which it lists. -/
inductive JobForm (number : Value → Prop) : Value → Prop
  | job {es : List (Value × Value)} {xs : List Value} (hkeys : ∀ e ∈ es, e.1 = .str "commands")
      (hxs : Value.field? "commands" es = some (.list xs))
      (hcommands : ∀ v ∈ Value.items xs, CommandForm number v) : JobForm number (.map es)

variable {v : Value} {number other : Value → Prop}

theorem map_iff {es : List (Value × Value)} :
    CommandForm number (.map es) ↔ NamedForm number (Value.entries es) := by
  constructor
  · intro h
    cases h with
    | named hes => exact hes
  · exact .named

theorem PairForm.imp (himp : ∀ w, number w → other w) (h : PairForm number v) :
    PairForm other v := by
  obtain ⟨hxs, hx, hy⟩ := h
  exact .pair hxs (himp _ hx) (himp _ hy)

theorem CommandForm.imp (himp : ∀ w, number w → other w) (h : CommandForm number v) :
    CommandForm other v := by
  cases h with
  | bare hname => exact .bare hname
  | @named es hes =>
    rw [map_iff]
    generalize Value.entries es = entries at hes
    cases hes with
    | selectPen hv => exact .selectPen hv
    | velocity hv => exact .velocity (himp _ hv)
    | plot hxs hpairs => exact .plot hxs fun w hw => (hpairs w hw).imp himp

theorem JobForm.imp (himp : ∀ w, number w → other w) (h : JobForm number v) :
    JobForm other v := by
  obtain ⟨hkeys, hxs, hcommands⟩ := h
  exact .job hkeys hxs fun w hw => (hcommands w hw).imp himp

/-! ## What the schema accepts -/

def IsNumber (v : Value) : Prop := Kind.number.holds v = true

theorem number_of_finite (h : IsFinite v) : IsNumber v := by
  cases v with
  | int i => rfl
  | double x => rfl
  | _ => cases h

theorem isPen_iff : IsPen v ↔ ∃ i : ℤ, v.IsRational i ∧ 0 ≤ i := by
  cases v with
  | int j => simp [IsPen, Value.IsRational]
  | double x =>
    constructor
    · rintro ⟨hx, n, hn⟩
      exact ⟨n, ⟨hx, by rw [hn, Int.cast_natCast]⟩, Int.natCast_nonneg n⟩
    · rintro ⟨i, ⟨hx, hi⟩, hnonneg⟩
      obtain ⟨n, rfl⟩ := Int.eq_ofNat_of_zero_le hnonneg
      exact ⟨hx, n, by rw [hi, Int.cast_natCast]⟩
  | _ => simp [IsPen, Value.IsRational]

theorem pen_iff : accepts [.kinds [.integer], .minimum 0] v = true ↔ IsPen v := by
  rw [isPen_iff, integerFrom_iff]

theorem pair_iff : accepts pairSchema v = true ↔ PairForm IsNumber v := by
  constructor
  · intro h
    obtain ⟨xs, rfl⟩ := array_of_accepts h
    simp only [pairSchema, accepts_cons, accepts_nil, Rule.kept_minItems, Rule.kept_maxItems,
      Rule.kept_items, Rule.kept_kinds, List.mem_singleton, exists_eq_left, and_true] at h
    obtain ⟨-, hmin, hmax, hitems⟩ := h
    have hlength : (Value.items xs).length = 2 := by
      rw [Value.items, List.length_map]
      omega
    obtain ⟨x, y, hxy⟩ := List.length_eq_two.mp hlength
    rw [hxy] at hitems
    exact .pair hxy (hitems x (by simp)) (hitems y (by simp))
  · rintro @⟨xs, x, y, hxs, hx, hy⟩
    have hlength : xs.length = 2 := by
      rw [← List.length_map (f := Value.detached (.list xs))]
      exact congrArg List.length hxs
    simp only [pairSchema, accepts_cons, accepts_nil, Rule.kept_minItems, Rule.kept_maxItems,
      Rule.kept_items, Rule.kept_kinds, List.mem_singleton, exists_eq_left, and_true, hxs,
      List.forall_mem_cons]
    exact ⟨rfl, hlength.ge, hlength.le, hx, by simpa [IsNumber] using hy⟩

theorem plot_iff : accepts plotSchema v = true ↔
    ∃ xs, v = .list xs ∧ xs ≠ [] ∧ ∀ x ∈ Value.items xs, PairForm IsNumber x := by
  have hlist (xs : List Value) : accepts plotSchema (.list xs) = true ↔
      xs ≠ [] ∧ ∀ x ∈ Value.items xs, PairForm IsNumber x := by
    rw [plotSchema, accepts_cons, accepts_cons, accepts_cons, Rule.kept_kinds, Rule.kept_minItems,
      Rule.kept_items, Nat.one_le_iff_ne_zero, Ne, List.length_eq_zero_iff]
    simp [accepts_nil, pair_iff, Kind.holds]
  constructor
  · intro h
    obtain ⟨xs, rfl⟩ := array_of_accepts h
    exact ⟨xs, rfl, (hlist xs).mp h⟩
  · rintro ⟨xs, rfl, h⟩
    exact (hlist xs).mpr h

theorem field?_of_entry {es : List (Value × Value)} {key : String}
    (hes : Value.entries es = [(.str key, v)]) (name : String) :
    Value.field? name es = if key = name then some v else none := by
  rw [← Value.lookup?_entries, hes]
  simp only [Value.lookup?, List.find?_cons, List.find?_nil, Value.isText]
  split <;> simp_all

theorem closed_of_entry {es : List (Value × Value)} {key : String}
    (hes : Value.entries es = [(.str key, v)]) {names : List String} :
    (Rule.closed names).Kept (.map es) ↔ key ∈ names := by
  obtain ⟨e, rfl, he⟩ := List.map_eq_singleton_iff.mp hes
  obtain ⟨hkey, -⟩ := Prod.mk.inj he
  rw [Rule.kept_closed, List.forall_mem_singleton, hkey]
  simp

theorem named_of_entry {es : List (Value × Value)} {key : String}
    (hes : Value.entries es = [(.str key, v)]) :
    accepts namedSchema (.map es) = true ↔
      key ∈ ["select_pen", "velocity", "plot_absolute"] ∧ (key = "select_pen" → IsPen v) ∧
        (key = "velocity" → IsNumber v) ∧ (key = "plot_absolute" → accepts plotSchema v = true) := by
  have hlength : es.length = 1 := by
    have hentries := congrArg List.length hes
    rwa [Value.entries, List.length_map] at hentries
  have hproperties (ps : List (String × List Rule)) : (Rule.properties ps).Kept (.map es) ↔
      ∀ p ∈ ps, key = p.1 → accepts p.2 v = true := by
    rw [Rule.kept_properties]
    simp only [field?_of_entry hes]
    refine forall₂_congr fun p _ => ?_
    by_cases hkey : key = p.1 <;> simp [hkey]
  rw [namedSchema, accepts_cons, accepts_cons, accepts_cons, accepts_cons, accepts_cons,
    Rule.kept_kinds, closed_of_entry hes, Rule.kept_minEntries, Rule.kept_maxEntries, hproperties, hlength]
  simp [accepts_nil, Kind.holds, pen_iff, accepts_kind, IsNumber]

theorem named_iff {es : List (Value × Value)} :
    accepts namedSchema (.map es) = true ↔ NamedForm IsNumber (Value.entries es) := by
  constructor
  · intro h
    obtain ⟨key, v, hes⟩ : ∃ key v, Value.entries es = [(.str key, v)] := by
      have hrules := h
      rw [namedSchema, accepts_cons, accepts_cons, accepts_cons, accepts_cons, Rule.kept_closed,
        Rule.kept_minEntries, Rule.kept_maxEntries] at hrules
      obtain ⟨-, hclosed, hmin, hmax, -⟩ := hrules
      obtain ⟨⟨k, x⟩, rfl⟩ := List.length_eq_one_iff.mp (Nat.le_antisymm hmax hmin)
      obtain ⟨n, -, hkey⟩ := hclosed _ (List.mem_singleton.mpr rfl)
      obtain rfl : k = .str n := hkey
      exact ⟨n, _, rfl⟩
    obtain ⟨hkey, hpen, hvelocity, hplot⟩ := (named_of_entry hes).mp h
    rw [hes]
    simp only [List.mem_cons, List.not_mem_nil, or_false] at hkey
    rcases hkey with rfl | rfl | rfl
    · exact .selectPen (hpen rfl)
    · exact .velocity (hvelocity rfl)
    · obtain ⟨xs, rfl, hxs, hpairs⟩ := plot_iff.mp (hplot rfl)
      exact .plot hxs hpairs
  · intro h
    generalize hes : Value.entries es = entries at h
    cases h with
    | selectPen hv => exact (named_of_entry hes).mpr (by simp [hv])
    | velocity hv => exact (named_of_entry hes).mpr (by simp [hv])
    | plot hxs hpairs =>
      have hplot := plot_iff.mpr ⟨_, rfl, hxs, hpairs⟩
      exact (named_of_entry hes).mpr (by simp [hplot])

theorem bare_iff : accepts bareSchema v = true ↔ ∃ name ∈ bareNames, v = .str name := by
  rw [bareSchema, accepts_cons, Rule.kept_enum]
  constructor
  · rintro ⟨⟨c, hc, hequal⟩, -⟩
    obtain ⟨name, hname, rfl⟩ := List.mem_map.mp hc
    exact ⟨name, hname, Value.eq_str_of_equal hequal⟩
  · rintro ⟨name, hname, rfl⟩
    exact ⟨⟨.str name, List.mem_map_of_mem hname, by simp [Value.equal, Value.same]⟩, accepts_nil⟩

/-- Whether a value is a bare command can be told of what can be shown. -/
theorem bare_faultless (hv : v.showable = true) : Faultless bareSchema v := by
  have hchoices : ∃ s, (Value.list (bareNames.map .str)).shown = .ok s :=
    (Value.shown_toldIf (p := True) fun _ => ⟨by decide +kernel, rfl⟩).exists_ok trivial
  rw [bareSchema, faultless_cons]
  refine ⟨Rule.faultless_of_told rfl fun b hb => ?_, faultless_nil⟩
  simp only [Rule.ownBreaches] at hb
  split at hb
  · cases hb
  · rw [List.mem_singleton.mp hb]
    have hshown : ToldIf True v.shown := Value.shown_toldIf fun _ => Value.showable_iff.mp hv
    obtain ⟨s, hs⟩ := hchoices
    refine Breach.message_toldIf (hshown.bind fun _ _ => ?_)
    rw [hs]
    exact .ok _

theorem form_of_accepts (h : accepts commandSchema v = true) : CommandForm IsNumber v := by
  obtain ⟨s, hs, haccepts⟩ := Rule.kept_anyOf (accepts_cons.mp h).1
  simp only [List.mem_cons, List.not_mem_nil, or_false] at hs
  rcases hs with rfl | rfl
  · obtain ⟨name, hname, rfl⟩ := bare_iff.mp haccepts
    exact .bare hname
  · obtain ⟨es, rfl⟩ := object_of_accepts haccepts
    exact .named (named_iff.mp haccepts)

theorem accepts_of_form (hv : v.showable = true) (h : CommandForm IsNumber v) :
    accepts commandSchema v = true := by
  refine accepts_cons.mpr ⟨?_, accepts_nil⟩
  cases h with
  | bare hname =>
    exact Rule.kept_choice [] (by simp) (bare_iff.mpr ⟨_, hname, rfl⟩)
  | named hes =>
    exact Rule.kept_choice [bareSchema] (by simpa using bare_faultless hv)
      (named_iff.mpr hes)

/-- A value that is no bare command is shown by the message on that. -/
theorem shown_of_faultless (hbare : ¬ accepts bareSchema v = true)
    (hfault : breach? (fun b => b matches .error _) bareSchema v = none) : v.showable = true := by
  have hbroken : ¬ (bareNames.map Value.str).any v.equal = true := by
    intro hany
    exact hbare (accepts_cons.mpr ⟨Rule.kept_enum.mpr (List.any_eq_true.mp hany), accepts_nil⟩)
  cases hshown : v.shown with
  | ok s => exact (Value.shown_shownIf v).showable_of_ok hshown
  | error f =>
    simp only [breach?, ruleBreach?, bareSchema, Rule.ownBreaches, if_neg hbroken, hshown] at hfault
    cases hfault

/-- An accepted item is a bare command, or it has been shown. -/
theorem showable_of_accepts (h : accepts commandSchema v = true) : v.showable = true := by
  by_cases hbare : accepts bareSchema v = true
  · obtain ⟨name, -, rfl⟩ := bare_iff.mp hbare
    rfl
  · have hnone : choiceBreach? [bareSchema, namedSchema] v = none :=
      Rule.choice_of_kept (accepts_cons.mp h).1
    refine shown_of_faultless hbare ?_
    rw [choiceBreach?] at hnone
    split at hnone
    next hkept => exact absurd (by simp [accepts, firstBreach?, hkept]) hbare
    next =>
      split at hnone
      next => cases hnone
      next hfaultless => exact hfaultless

/-- What cannot be shown is met by the fault of that, for it is first tried as a bare command. -/
theorem command_fault {f : Fault} (hv : v.shown = .error f) :
    firstBreach? commandSchema v = some (.error f) := by
  have hbroken : ¬ (bareNames.map Value.str).any v.equal = true := by
    intro hany
    obtain ⟨c, hc, hequal⟩ := List.any_eq_true.mp hany
    obtain ⟨name, -, rfl⟩ := List.mem_map.mp hc
    rw [Value.eq_str_of_equal hequal] at hv
    cases hv
  have hbare {wanted : Breach → Bool} (hwanted : wanted (.error f) = true) :
      breach? wanted bareSchema v = some (.error f) := by
    have hmessage : Breach.message (do
        return (← v.shown) ++ " is not one of ".toList ++
          (← (Value.list (bareNames.map .str)).shown)) = .error f := by
      rw [hv]
      rfl
    simp only [breach?, ruleBreach?, bareSchema, Rule.ownBreaches, if_neg hbroken, hmessage,
      List.find?_cons_of_pos, hwanted]
  have hchoice : choiceBreach? [bareSchema, namedSchema] v = some (.error f) := by
    rw [choiceBreach?]
    split
    next hnone => cases (hbare rfl).symm.trans hnone
    next =>
      split
      next fault hfault => exact hfault.symm.trans (hbare rfl)
      next hnone => cases (hbare rfl).symm.trans hnone
  rw [commandSchema, firstBreach?, breach?, ruleBreach?, hchoice]
  rfl

theorem commandSchema_iff :
    accepts commandSchema v = true ↔ CommandForm IsNumber v ∧ v.showable = true :=
  ⟨fun h => ⟨form_of_accepts h, showable_of_accepts h⟩, fun ⟨hform, hv⟩ => accepts_of_form hv hform⟩

theorem listed_iff : accepts [.kinds [.array], .items commandSchema] v = true ↔
    ∃ xs, v = .list xs ∧ ∀ x ∈ Value.items xs, CommandForm IsNumber x ∧ x.showable = true := by
  have hlist (xs : List Value) : accepts [.kinds [.array], .items commandSchema] (.list xs) = true ↔
      ∀ x ∈ Value.items xs, CommandForm IsNumber x ∧ x.showable = true := by
    rw [accepts_cons, accepts_cons, Rule.kept_kinds, Rule.kept_items]
    simp [accepts_nil, Kind.holds, commandSchema_iff]
  constructor
  · intro h
    obtain ⟨xs, rfl⟩ := array_of_accepts h
    exact ⟨xs, rfl, (hlist xs).mp h⟩
  · rintro ⟨xs, rfl, h⟩
    exact (hlist xs).mpr h

theorem schema_iff {doc : Value} : accepts schema doc = true ↔
    ∃ es xs, doc = .map es ∧ (∀ e ∈ es, e.1 = .str "commands") ∧
      Value.field? "commands" es = some (.list xs) ∧
      ∀ x ∈ Value.items xs, CommandForm IsNumber x ∧ x.showable = true := by
  have hdescribes : Schema.Describes [("commands", [.kinds [.array], .items commandSchema])]
      [("commands", fun v => ∃ xs, v = .list xs ∧
        ∀ x ∈ Value.items xs, CommandForm IsNumber x ∧ x.showable = true)] :=
    .cons ⟨rfl, fun _ => listed_iff⟩ .nil
  refine (hdescribes.record_iff rfl).trans ?_
  constructor
  · rintro @⟨es, hkeys, hneeded, hparts⟩
    obtain ⟨x, hx⟩ := hneeded "commands" (List.mem_singleton_self _)
    obtain ⟨xs, rfl, hxs⟩ := hparts _ (List.mem_singleton_self _) x hx
    exact ⟨es, xs, rfl, by simpa using hkeys, hx, hxs⟩
  · rintro ⟨es, xs, rfl, hkeys, hxs, hforms⟩
    refine .intro (by simpa using hkeys) (by simp [hxs]) ?_
    rw [List.forall_mem_singleton]
    intro x hx
    cases hxs.symm.trans hx
    exact ⟨xs, rfl, hforms⟩

theorem items_showable {es : List (Value × Value)} {xs : List Value}
    (hdoc : (Value.map es).Tellable false) (hxs : Value.field? "commands" es = some (.list xs)) :
    ∀ x ∈ Value.items xs, x.showable = true := fun x hx =>
  ((hdoc.field hxs).items x hx).showable

theorem job_iff {doc : Value} (hdoc : doc.Tellable false) :
    accepts schema doc = true ↔ JobForm IsNumber doc := by
  rw [schema_iff]
  constructor
  · rintro ⟨es, xs, rfl, hkeys, hxs, hitems⟩
    exact .job hkeys hxs fun x hx => (hitems x hx).1
  · rintro ⟨hkeys, hxs, hforms⟩
    exact ⟨_, _, rfl, hkeys, hxs, fun x hx => ⟨hforms x hx, items_showable hdoc hxs x hx⟩⟩

/-- What cannot be shown stands in place of all that comes behind it, whether it is a command or not. -/
theorem build_fault {source : String} {es : List (Value × Value)} {xs : List Value}
    (before after : List Value) {x : Value} {f : Fault} (hkeys : ∀ e ∈ es, e.1 = .str "commands")
    (hxs : Value.field? "commands" es = some (.list xs))
    (hitems : Value.items xs = before ++ x :: after)
    (hbefore : ∀ y ∈ before, accepts commandSchema y = true) (hx : x.shown = .error f) :
    build source (.map es) = .error (.fault f) := by
  have hcommands : Wordless f [.kinds [.array], .items commandSchema] (.list xs) := by
    refine wordless_cons.mpr (.inr ⟨Rule.kept_kinds.mpr ⟨_, List.mem_singleton_self _, rfl⟩, ?_⟩)
    exact wordless_cons.mpr (.inl (Rule.wordless_items.mpr
      ⟨before, x, after, hitems, hbefore, command_fault hx⟩))
  have hbreach : Wordless f schema (.map es) := by
    refine wordless_cons.mpr (.inr ⟨Rule.kept_kinds.mpr ⟨_, List.mem_singleton_self _, rfl⟩, ?_⟩)
    refine wordless_cons.mpr (.inr ⟨Rule.kept_closed.mpr fun e he => ?_, ?_⟩)
    · exact ⟨"commands", List.mem_singleton_self _, hkeys e he⟩
    refine wordless_cons.mpr (.inr ⟨Rule.kept_required.mpr ?_, ?_⟩)
    · exact List.forall_mem_singleton.mpr ⟨_, hxs⟩
    · exact wordless_cons.mpr (.inl (Rule.wordless_property.mpr ⟨_, hxs, hcommands⟩))
  unfold Wordless at hbreach
  rw [build, check, hbreach]
  rfl

/-- Lists within each other, a hundred of them in the first part and a hundred more in each further one. -/
def nestedItem : Value := .list ((List.range 12).map fun k => .nested (100 * k + 99))

theorem nestedItem_writable : nestedItem.writable = true := by
  rw [nestedItem, Value.writable, Value.writableAll_eq, List.all_eq_true, List.forall_mem_map]
  exact fun k _ => Value.writable_nested _

theorem nestedItem_shown : ∃ during, nestedItem.shown = .error (.tooDeep during) := by
  refine Value.shown_of_not_fits nestedItem_writable ?_
  rw [nestedItem, Value.fits, Value.showRoom, Value.nestsIn_list, List.all_eq_false]
  refine ⟨.nested (100 * 11 + 99), List.mem_map_of_mem (List.mem_range.mpr (by decide)), ?_⟩
  rw [Value.nestsIn_nested (by decide)]
  decide

/-- Behind good commands, such an item is met before anything else. -/
theorem build_nestedItem (source : String) {before : List Value}
    (hplain : Value.items (before ++ [nestedItem]) = before ++ [nestedItem])
    (hbefore : ∀ y ∈ before, accepts commandSchema y = true) :
    ∃ during, build source (.map [(.str "commands", .list (before ++ [nestedItem]))]) =
      .error (.fault (.tooDeep during)) := by
  obtain ⟨during, hshown⟩ := nestedItem_shown
  refine ⟨during, build_fault before [] (fun e he => ?_) rfl hplain hbefore hshown⟩
  rw [List.mem_singleton.mp he]

theorem commandSchema_tellable : Rule.tellableRules false commandSchema = true := rfl

theorem schema_tellable : Rule.tellableRules false schema = true := rfl

end PenPlotter.Job
