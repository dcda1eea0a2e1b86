import PenPlotter.Proofs.Job.Judged
/-! # The first fault of a job

A job is looked through twice. All items must have the form of commands before any number is looked at,
and the first one that has not is told of. Only then the numbers are judged, in the order of the document,
and the first one that is not finite is told of.
-/
namespace PenPlotter.Job
open Schema

def RefusesItem (source : String) (items : List Value) (r : Except Failure (List Command)) : Prop :=
  ∃ before x after s, items = before ++ x :: after ∧
    (∀ y ∈ before, CommandForm IsNumber y) ∧ ¬ CommandForm IsNumber x ∧ x.shown = .ok s ∧
    r = .error (.document ⟨.job, source, .invalid ⟨["commands", toString before.length],
      s ++ " is not valid under any of the given schemas".toList⟩⟩)

def RefusesNumber (source : String) (items : List Value) (r : Except Failure (List Command)) : Prop :=
  ∃ before place x after, numbersOf items = before ++ (place, .double x) :: after ∧
    (∀ n ∈ before, IsFinite n.2) ∧ x.isFinite = false ∧
    r = .error (.document ⟨.job, source, .notFinite place x.general⟩)

/-- A job is refused for its first item that is no command; where there is none, for its first number that
is not finite; and where there is none either, it is built. -/
def EndsByItems (source : String) (items : List Value) (r : Except Failure (List Command)) : Prop :=
  RefusesItem source items r ∨ (∀ x ∈ items, CommandForm IsNumber x) ∧
    (RefusesNumber source items r ∨ (∀ n ∈ numbersOf items, IsFinite n.2) ∧ ∃ cs, r = .ok cs)

variable {source : String} {v : Value}

/-- What is told of an item is that it is no command: a command is accepted, or cannot be shown. -/
theorem command_breach {violation : Violation}
    (hb : firstBreach? commandSchema v = some (.ok violation)) :
    ¬ CommandForm IsNumber v ∧ ∃ s, v.shown = .ok s ∧ noChoice v = .ok violation := by
  cases hshown : v.shown with
  | error f => cases (command_fault hshown).symm.trans hb
  | ok s =>
    refine ⟨fun hform => ?_, s, rfl, ?_⟩
    · have hshowable : v.showable = true := (Value.shown_shownIf v).showable_of_ok hshown
      have haccepts := accepts_of_form hshowable hform
      rw [accepts, hb] at haccepts
      cases haccepts
    · rw [commandSchema, firstBreach?_singleton] at hb
      exact choiceBreach?_ok (Option.filter_eq_some_iff.mp hb).1

variable {es : List (Value × Value)} {xs : List Value}

theorem entries_commands (xs : List Value) :
    Value.entries [(.str "commands", .list xs)] = [(.str "commands", .list xs)] := rfl

theorem entries_field (hes : Value.entries es = [(.str "commands", .list xs)]) :
    Value.field? "commands" es = some (.list xs) := by
  rw [field?_of_entry hes, if_pos rfl]

/-- All that can be wrong with a document that lists commands is an item. -/
theorem job_breach {b : Breach} (hes : Value.entries es = [(.str "commands", .list xs)])
    (hb : firstBreach? schema (.map es) = some b) :
    ∃ before x after c, Value.items xs = before ++ x :: after ∧
      (∀ y ∈ before, accepts commandSchema y = true) ∧ firstBreach? commandSchema x = some c ∧
      (c.within (toString before.length)).within "commands" = b := by
  have hobject : (Rule.kinds [.object]).Kept (.map es) := rfl
  have hclosed : (Rule.closed ["commands"]).Kept (.map es) := (closed_of_entry hes).mpr (by simp)
  have hrequired : (Rule.required ["commands"]).Kept (.map es) :=
    Rule.kept_required.mpr (by simp [entries_field hes])
  have harray : (Rule.kinds [.array]).Kept (.list xs) := rfl
  rw [schema, firstBreach?_of_kept hobject, firstBreach?_of_kept hclosed,
    firstBreach?_of_kept hrequired, firstBreach?_singleton, property_breach_iff] at hb
  obtain ⟨y, c, hy, hc, rfl⟩ := hb
  cases (entries_field hes).symm.trans hy
  rw [firstBreach?_of_kept harray, firstBreach?_singleton, items_breach_iff] at hc
  obtain ⟨before, x, after, d, hsplit, hbefore, hd, rfl⟩ := hc
  exact ⟨before, x, after, d, hsplit, hbefore, hd, rfl⟩

theorem job_accepts_iff (hes : Value.entries es = [(.str "commands", .list xs)])
    (hxs : (Value.list xs).Tellable false) :
    accepts schema (.map es) = true ↔ ∀ x ∈ Value.items xs, CommandForm IsNumber x := by
  constructor
  · intro h
    obtain ⟨ds, ys, hds, -, hys, hforms⟩ := schema_iff.mp h
    cases hds
    cases (entries_field hes).symm.trans hys
    exact fun x hx => (hforms x hx).1
  · intro h
    have hkeys : ∀ e ∈ es, e.1 = .str "commands" := by
      simpa using Rule.kept_closed.mp ((closed_of_entry hes).mpr (List.mem_singleton_self _))
    exact schema_iff.mpr ⟨es, xs, rfl, hkeys, entries_field hes,
      fun x hx => ⟨h x hx, (hxs.items x hx).showable⟩⟩

/-- Behind good items, one that is not accepted is told of, unless it meets a limit. -/
theorem build_unaccepted {b : Breach} (hes : Value.entries es = [(.str "commands", .list xs)])
    (hb : firstBreach? schema (.map es) = some b) :
    RefusesItem source (Value.items xs) (build source (.map es)) ∨
      ∃ f, f.IsLimit ∧ build source (.map es) = .error (.fault f) := by
  obtain ⟨before, x, after, c, hsplit, hbefore, hc, rfl⟩ := job_breach hes hb
  rcases c with f | violation
  · refine .inr ⟨f, breach?_isLimit hc, ?_⟩
    rw [build, check, hb]
    rfl
  · obtain ⟨hform, s, hs, htold⟩ := command_breach hc
    rw [noChoice_eq hs] at htold
    cases htold
    refine .inl ⟨before, x, after, s, hsplit, fun y hy => form_of_accepts (hbefore y hy), hform, hs, ?_⟩
    rw [build, check, hb]
    rfl

/-- A job of which all items are accepted ends with its numbers. -/
theorem build_accepted (source : String) (hes : Value.entries es = [(.str "commands", .list xs)])
    (h : accepts schema (.map es) = true) :
    (∀ x ∈ Value.items xs, CommandForm IsNumber x) ∧
      Reported source (numbersOf (Value.items xs)) (build source (.map es)) := by
  have hnone : firstBreach? schema (.map es) = none := Option.isNone_iff_eq_none.mp h
  obtain ⟨ds, ys, hds, -, hys, hitems⟩ := schema_iff.mp h
  cases hds
  cases (entries_field hes).symm.trans hys
  have hforms : ∀ x ∈ Value.items xs, CommandForm IsNumber x := fun x hx => (hitems x hx).1
  refine ⟨hforms, ?_⟩
  rw [build, check, hnone, itemsOf, Value.lookup?_entries, entries_field hes]
  exact commands_reported hforms 0

theorem build_endsByItems_or (source : String) (hes : Value.entries es = [(.str "commands", .list xs)]) :
    EndsByItems source (Value.items xs) (build source (.map es)) ∨
      ∃ f, f.IsLimit ∧ build source (.map es) = .error (.fault f) := by
  cases hb : firstBreach? schema (.map es) with
  | some b => exact (build_unaccepted hes hb).imp_left .inl
  | none =>
    obtain ⟨hforms, hreported⟩ := build_accepted source hes (by simp [accepts, hb])
    refine .inl (.inr ⟨hforms, ?_⟩)
    generalize build source (.map es) = r at hreported
    cases hreported with
    | built hnumbers cs => exact .inr ⟨hnumbers, cs, rfl⟩
    | refused hnumbers hbefore hx => exact .inl ⟨_, _, _, _, hnumbers, hbefore, hx, rfl⟩

/-- No limit is met where all items can be shown with all their parts. -/
theorem build_faultless (hes : Value.entries es = [(.str "commands", .list xs)])
    (hxs : (Value.list xs).Tellable false) (f : Fault) : build source (.map es) ≠ .error (.fault f) := by
  intro hfault
  cases hb : firstBreach? schema (.map es) with
  | none =>
    have hreported := (build_accepted source hes (by simp [accepts, hb])).2
    rw [hfault] at hreported
    cases hreported
  | some b =>
    obtain ⟨before, x, after, c, hsplit, -, hc, rfl⟩ := job_breach hes hb
    have hx : x.Tellable false := hxs.items x (by simp [hsplit])
    obtain ⟨violation, rfl⟩ := (firstBreach?_toldIf commandSchema_tellable hc).exists_ok hx
    rw [build, check, hb] at hfault
    cases hfault

/-- A job is refused for the first fault in it. Where an item has not the form of a command, that is the
first such item, whatever numbers the others hold. Otherwise it is the first velocity or coordinate that is
not finite, and where there is none, the job is built. An item that nests too much to be shown may meet a
limit instead, but makes nothing else go wrong. -/
theorem build_first_fault (source : String) (es : List (Value × Value)) (xs : List Value)
    (hes : Value.entries es = [(.str "commands", .list xs)])
    (hxs : (Value.list xs).writable = true) :
    ((Value.list xs).Shallow →
      ((¬ ∀ x ∈ Value.items xs, CommandForm IsNumber x) →
        RefusesItem source (Value.items xs) (build source (.map es))) ∧
      ((∀ x ∈ Value.items xs, CommandForm IsNumber x) →
        ((¬ ∀ n ∈ numbersOf (Value.items xs), IsFinite n.2) →
          RefusesNumber source (Value.items xs) (build source (.map es))) ∧
        ((∀ n ∈ numbersOf (Value.items xs), IsFinite n.2) →
          ∃ cs, build source (.map es) = .ok cs))) ∧
    (EndsByItems source (Value.items xs) (build source (.map es)) ∨
      ∃ f, f.IsLimit ∧ build source (.map es) = .error (.fault f)) := by
  have hends := build_endsByItems_or source hes
  refine ⟨fun hshallow => ?_, hends⟩
  rcases hends with (hitem | ⟨hforms, hnumber | ⟨hfinite, hbuilt⟩⟩) | ⟨f, -, hf⟩
  · obtain ⟨before, x, after, s, hsplit, -, hx, -⟩ := id hitem
    exact ⟨fun _ => hitem, fun hall => absurd (hall x (by simp [hsplit])) hx⟩
  · obtain ⟨before, place, x, after, hnumbers, -, hx, -⟩ := id hnumber
    refine ⟨absurd hforms, fun _ => ⟨fun _ => hnumber, fun hall => ?_⟩⟩
    have hfinite := hall _ (hnumbers ▸ List.mem_append_right _ List.mem_cons_self)
    exact absurd hfinite (by simp [IsFinite, hx])
  · exact ⟨absurd hforms, fun _ => ⟨absurd hfinite, fun _ => hbuilt⟩⟩
  · exact absurd hf (build_faultless hes (.of_shallow hxs hshallow) f)

/-- A nan stands before the item that is wrong, a pen below zero. -/
def unformedItems : List Value :=
  [.map [(.str "velocity", .double (.nan 0))], .str "pen_down", .map [(.str "select_pen", .int (-1))]]

/-- The second point of a plot has no finite `y`, and a velocity behind it is none either. -/
def boundlessItems : List Value :=
  [.str "initialize",
    .map [(.str "plot_absolute", .list [.list [.int 0, .int 0],
      .list [.int 5, .double (.infinite false)]])],
    .map [(.str "velocity", .double (.infinite true))]]

theorem build_first_fault_told :
    let unformed := build "<job>" (.map [(.str "commands", .list unformedItems)])
    let boundless := build "<job>" (.map [(.str "commands", .list boundlessItems)])
    RefusesItem "<job>" (Value.items unformedItems) unformed ∧
    error? unformed = some (.document ⟨.job, "<job>", .invalid ⟨["commands", "2"],
      "\x7b'select_pen': -1\x7d is not valid under any of the given schemas".toList⟩⟩) ∧
    RefusesNumber "<job>" (Value.items boundlessItems) boundless ∧
    error? boundless = some
      (.document ⟨.job, "<job>", .notFinite "commands.1.plot_absolute.1.1" "inf".toList⟩) := by
  have hplain (xs : List Value) (h : Value.plainIn 5 (.list xs) = true) : (Value.list xs).Shallow :=
    .of_plainIn h (by decide)
  have hunformed : ¬ ∀ x ∈ Value.items unformedItems, CommandForm IsNumber x := by
    rw [← job_accepts_iff (entries_commands unformedItems)
      (.of_shallow (by decide +kernel) (hplain _ (by decide +kernel)))]
    decide +kernel
  have hformed : ∀ x ∈ Value.items boundlessItems, CommandForm IsNumber x := by
    rw [← job_accepts_iff (entries_commands boundlessItems)
      (.of_shallow (by decide +kernel) (hplain _ (by decide +kernel)))]
    decide +kernel
  have hboundless : ¬ ∀ n ∈ numbersOf (Value.items boundlessItems), IsFinite n.2 := by
    intro h
    have hnumber : IsFinite (.double (.infinite false)) := h _ (List.mem_of_getElem? (i := 3) rfl)
    cases hnumber
  exact ⟨((build_first_fault "<job>" _ unformedItems rfl (by decide +kernel)).1
      (hplain _ (by decide +kernel))).1 hunformed,
    by decide +kernel,
    (((build_first_fault "<job>" _ boundlessItems rfl (by decide +kernel)).1
      (hplain _ (by decide +kernel))).2 hformed).1 hboundless,
    by decide +kernel⟩

/-- A list within lists is no command, but the job is not refused for it. -/
theorem build_untold_nested :
    ¬ ∀ (source : String) (xs : List Value), (Value.list xs).writable = true →
      (¬ ∀ x ∈ Value.items xs, CommandForm IsNumber x) →
        ∃ place message, build source (.map [(.str "commands", .list xs)]) =
          .error (.document ⟨.job, source, .invalid ⟨["commands", place], message⟩⟩) := by
  intro h
  have hwritable : (Value.list [.str "pen_down", nestedItem]).writable = true := by
    rw [Value.writable, Value.writableAll, Value.writableAll, nestedItem_writable]
    rfl
  have hform : ¬ ∀ x ∈ Value.items [.str "pen_down", nestedItem], CommandForm IsNumber x := by
    intro hall
    cases hall nestedItem (List.mem_cons_of_mem _ List.mem_cons_self)
  obtain ⟨place, message, hrefused⟩ := h "job.yaml" _ hwritable hform
  have hbefore : ∀ y ∈ [Value.str "pen_down"], accepts commandSchema y = true :=
    List.forall_mem_singleton.mpr (by decide +kernel)
  obtain ⟨during, hfault⟩ := build_nestedItem "job.yaml" rfl hbefore
  cases hfault.symm.trans hrefused

end PenPlotter.Job
