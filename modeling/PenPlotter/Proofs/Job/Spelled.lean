import PenPlotter.Proofs.Job.Form
import PenPlotter.Proofs.Plot.CommandText
/-! # What the items of a job spell

An item spells a command: by its name alone, or by the one entry of a mapping, with the very numbers
that stand there. The commands of a job are those that its items spell, one by one and in order; and all
commands with a pen from 0 on, finite numbers and a point at least can be spelled, so these and no others
are the programs that there are jobs for.
-/
namespace PenPlotter

/-! ## Related lists -/

section
variable {α β : Type} {R : α → β → Prop} {P : α → Prop} {Q : β → Prop} {as : List α} {bs : List β}

/-- What holds of the two sides of a relation holds throughout lists that it relates. -/
theorem forall₂_sides (hR : ∀ a b, R a b → P a ∧ Q b) (h : List.Forall₂ R as bs) :
    (∀ a ∈ as, P a) ∧ ∀ b ∈ bs, Q b := by
  induction h with
  | nil => simp
  | cons hab _ ih =>
    obtain ⟨ha, hb⟩ := hR _ _ hab
    exact ⟨List.forall_mem_cons.mpr ⟨ha, ih.1⟩, List.forall_mem_cons.mpr ⟨hb, ih.2⟩⟩

theorem forall₂_carry (hR : ∀ a b, R a b → P a → Q b) (h : List.Forall₂ R as bs)
    (has : ∀ a ∈ as, P a) : ∀ b ∈ bs, Q b :=
  (forall₂_sides (fun a b hab => ⟨hab.1, hR a b hab.2 hab.1⟩)
    ((List.forall₂_and_left as bs).mpr ⟨has, h⟩)).2

theorem exists_forall₂ (h : ∀ a ∈ as, ∃ b, R a b) :
    ∃ bs, List.Forall₂ R as bs := by
  induction as with
  | nil => exact ⟨[], .nil⟩
  | cons a as ih =>
    obtain ⟨⟨b, hb⟩, has⟩ := List.forall_mem_cons.mp h
    obtain ⟨bs, hbs⟩ := ih has
    exact ⟨b :: bs, .cons hb hbs⟩

end

/-! ## Commands and their items -/

theorem Value.Numeric.writable {v : Value} (h : v.Numeric) : v.writable = true := by
  cases v with
  | int i => exact h
  | bool b | double x => rfl
  | _ => exact h.elim

namespace Command
open Value

/-- A command that a plotter can follow: a pen from 0 on, numbers that are finite, and a point to go to. -/
def Drawable : Command → Prop
  | .selectPen pen => ∃ i : ℤ, pen = .int i ∧ 0 ≤ i
  | .velocity v => Job.IsFinite v
  | .plot points => points ≠ [] ∧ ∀ p ∈ points, Job.IsFinite p.x ∧ Job.IsFinite p.y
  | _ => True

def item : Command → Value
  | .defaults => .str "default_settings"
  | .initializePlotter => .str "initialize"
  | .penUp => .str "pen_up"
  | .penDown => .str "pen_down"
  | .selectPen pen => .map [(.str "select_pen", pen)]
  | .velocity v => .map [(.str "velocity", v)]
  | .plot points => .map [(.str "plot_absolute", .list (points.map fun p => .list [p.x, p.y]))]

theorem detached_item (whole : Value) (c : Command) : detached whole c.item = c.item := by
  cases c <;> rfl

theorem item_writable {c : Command} (h : ∀ v ∈ c.numbers, v.writable = true) :
    c.item.writable = true := by
  cases c with
  | selectPen v | velocity v => simpa [item, writable, writableEntries] using h v (by simp [numbers])
  | plot points =>
    have hpoint : ∀ p ∈ points, (Value.list [p.x, p.y]).writable = true := by
      intro p hp
      have hp' : ∀ v ∈ [p.x, p.y], v.writable = true :=
        fun v hv => h v (List.mem_flatMap.mpr ⟨p, hp, hv⟩)
      rw [writable, writableAll_iff]
      exact hp'
    simpa [item, writable, writableEntries, writableAll_iff] using hpoint
  | _ => rfl

theorem item_plain {c : Command} (h : c.Drawable) : plainIn 5 c.item = true := by
  have hnumber {v : Value} {room : Nat} (hv : Job.IsFinite v) : plainIn (room + 1) v = true := by
    cases v with
    | int | double => rfl
    | _ => cases hv
  cases c with
  | selectPen pen =>
    obtain ⟨i, rfl, -⟩ := h
    rfl
  | velocity v => simp [item, plainIn, hnumber h]
  | plot points =>
    have hpoints : ∀ p ∈ points, plainIn 3 (.list [p.x, p.y]) = true := fun p hp => by
      simp [plainIn, hnumber (h.2 p hp).1, hnumber (h.2 p hp).2]
    simpa [item, plainIn] using hpoints
  | _ => rfl

theorem item_showable {c : Command} (h : c.Drawable) (hc : ∀ v ∈ c.numbers, v.writable = true) :
    c.item.showable = true :=
  showable_iff.mpr ⟨item_writable hc, nestsIn_mono (by decide) (nestsIn_of_plainIn (item_plain h))⟩

end Command

namespace Job
open Schema
variable {source place : String} {v : Value} {p : Point} {c : Command}

theorem toInt_writable (hv : v.writable = true) {i : ℤ} (hi : v.toInt = .ok i) :
    Decimal.writable i = true := by
  cases v with
  | bool b =>
    cases hi
    exact Decimal.writable_of_lt (k := 1) (by decide) (by cases b <;> decide)
  | int j =>
    cases hi
    exact hv
  | double x =>
    cases x with
    | finite s m e hc =>
      refine Double.truncate_writable (s := s) hc ?_
      cases hi
      rfl
    | infinite s => cases hi
    | nan p => cases hi
  | _ => cases hi

/-! ## Items and commands -/

inductive SpellsPoint : Value → Point → Prop
  | pair {xs : List Value} {x y : Value} (hxs : Value.items xs = [x, y]) (hx : IsFinite x)
      (hy : IsFinite y) : SpellsPoint (.list xs) ⟨x, y⟩

/-- An item spells a command. A pen may be written as a double; the command has the integer that it is. -/
inductive Spells : Value → Command → Prop
  | defaults : Spells (.str "default_settings") .defaults
  | initializePlotter : Spells (.str "initialize") .initializePlotter
  | penUp : Spells (.str "pen_up") .penUp
  | penDown : Spells (.str "pen_down") .penDown
  | selectPen {es : List (Value × Value)} {v : Value} {i : ℤ}
      (hes : Value.entries es = [(.str "select_pen", v)]) (hv : v.IsRational i) (hi : 0 ≤ i) :
      Spells (.map es) (.selectPen (.int i))
  | velocity {es : List (Value × Value)} {v : Value}
      (hes : Value.entries es = [(.str "velocity", v)]) (hv : IsFinite v) :
      Spells (.map es) (.velocity v)
  | plot {es : List (Value × Value)} {xs : List Value} {ps : List Point}
      (hes : Value.entries es = [(.str "plot_absolute", .list xs)]) (hps : ps ≠ [])
      (hpoints : List.Forall₂ SpellsPoint (Value.items xs) ps) : Spells (.map es) (.plot ps)

/-- A finite number that can be shown can be written in a command. -/
theorem IsFinite.numeric (h : IsFinite v) (hv : v.writable = true) : v.Numeric := by
  cases v with
  | int i => exact hv
  | double x => exact h
  | _ => exact h.elim

theorem IsFinite.detached (h : IsFinite v) {whole : Value} : whole.detached v = v := by
  cases v with
  | int i => rfl
  | double x => rfl
  | _ => exact h.elim

theorem spellsPoint_iff {xs : List Value} {x y : Value} (hxs : Value.items xs = [x, y]) :
    SpellsPoint (.list xs) p ↔ IsFinite x ∧ IsFinite y ∧ p = ⟨x, y⟩ := by
  constructor
  · rintro ⟨hitems, hx, hy⟩
    rw [hxs] at hitems
    cases hitems
    exact ⟨hx, hy, rfl⟩
  · rintro ⟨hx, hy, rfl⟩
    exact .pair hxs hx hy

theorem SpellsPoint.sides (h : SpellsPoint v p) : PairForm IsFinite v ∧ IsFinite p.x ∧ IsFinite p.y := by
  obtain ⟨hxs, hx, hy⟩ := h
  exact ⟨.pair hxs hx hy, hx, hy⟩

theorem SpellsPoint.numeric (h : SpellsPoint v p) (hv : v.writable = true) :
    p.x.Numeric ∧ p.y.Numeric := by
  obtain @⟨xs, x, y, hxs, hx, hy⟩ := h
  have hitems := Value.items_writable hv
  rw [hxs] at hitems
  exact ⟨hx.numeric (hitems x (by simp)), hy.numeric (hitems y (by simp))⟩

theorem points_ne_nil {xs : List Value} {ps : List Point}
    (h : List.Forall₂ SpellsPoint (Value.items xs) ps) : ps ≠ [] ↔ xs ≠ [] := by
  have hlength := h.length_eq
  rw [Value.items, List.length_map] at hlength
  rw [← List.length_pos_iff, ← List.length_pos_iff, hlength]

/-- Only commands that can be drawn are spelled, and only by items of their form with finite numbers. -/
theorem Spells.sides (h : Spells v c) : CommandForm IsFinite v ∧ c.Drawable := by
  cases h with
  | defaults | initializePlotter | penUp | penDown => exact ⟨.bare (by simp), trivial⟩
  | selectPen hes hv hi =>
    exact ⟨.named (hes ▸ .selectPen (isPen_iff.mpr ⟨_, hv, hi⟩)), _, rfl, hi⟩
  | velocity hes hv => exact ⟨.named (hes ▸ .velocity hv), hv⟩
  | plot hes hps hpoints =>
    obtain ⟨hforms, hfinite⟩ := forall₂_sides (fun _ _ hp => hp.sides) hpoints
    exact ⟨.named (hes ▸ .plot ((points_ne_nil hpoints).mp hps) hforms), hps, hfinite⟩

/-- The numbers of a command can be written if its item can. -/
theorem Spells.numeric (h : Spells v c) (hv : v.writable = true) : c.Numeric := by
  have hparameter {es : List (Value × Value)} {name : String} {x : Value}
      (hv : (Value.map es).writable = true) (hes : Value.entries es = [(.str name, x)]) :
      x.writable = true :=
    Value.field?_writable hv (by rw [field?_of_entry hes name, if_pos rfl])
  cases h with
  | defaults | initializePlotter | penUp | penDown => exact nofun
  | selectPen hes hx hi =>
    exact List.forall_mem_singleton.mpr
      (toInt_writable (hparameter hv hes) (Value.toInt_of_isRational hx))
  | velocity hes hx => exact List.forall_mem_singleton.mpr (hx.numeric (hparameter hv hes))
  | plot hes hps hpoints =>
    have hnumbers := forall₂_carry (fun _ _ hp => hp.numeric) hpoints
      (Value.items_writable (hparameter hv hes))
    intro w hw
    obtain ⟨p, hp, hw⟩ := List.mem_flatMap.mp hw
    have hpair : ∀ n ∈ [p.x, p.y], n.Numeric := by simpa using hnumbers p hp
    exact hpair w hw

theorem IsFinite.nests (h : IsFinite v) (room : ℕ) : Value.nestsIn (room + 1) v = true := by
  cases v with
  | int | double => rfl
  | _ => exact h.elim

theorem SpellsPoint.nests (h : SpellsPoint v p) {room : ℕ} (hplain : Value.plainIn room v = true) :
    Value.nestsIn 3 v = true := by
  obtain ⟨hxs, hx, hy⟩ := h
  rw [Value.items_of_plainIn hplain] at hxs
  subst hxs
  simp [Value.nestsIn_list, hx.nests 1, hy.nests 1]

/-- An item without references that spells a command nests no more than that asks for. -/
theorem Spells.fits (h : Spells v c) {room : ℕ} (hplain : Value.plainIn room v = true) :
    v.fits = true := by
  have hparameter {es : List (Value × Value)} {name : String} {x : Value}
      (hplain : Value.plainIn room (.map es) = true)
      (hes : Value.entries es = [(.str name, x)]) (hx : Value.nestsIn 4 x = true) :
      (Value.map es).fits = true := by
    rw [Value.entries_of_plainIn hplain] at hes
    subst hes
    have hmap : Value.nestsIn 5 (.map [(.str name, x)]) = true := by
      rw [Value.nestsIn_map, List.all_cons, hx]
      rfl
    exact Value.nestsIn_mono (by decide) hmap
  cases h with
  | defaults | initializePlotter | penUp | penDown => rfl
  | @selectPen es x i hes hx hi =>
    refine hparameter hplain hes ?_
    cases x with
    | int | double => rfl
    | _ => exact hx.elim
  | velocity hes hx => exact hparameter hplain hes (hx.nests 3)
  | @plot es xs ps hes hps hpoints =>
    have hxs : Value.plainIn room (.list xs) = true :=
      Value.plainIn_field hplain (by rw [field?_of_entry hes, if_pos rfl])
    refine hparameter hplain hes ?_
    rw [Value.nestsIn_list, List.all_eq_true, ← Value.items_of_plainIn hxs]
    have hnests : ∀ x ∈ Value.items xs, Value.plainIn room x = true → Value.nestsIn 3 x = true :=
      (forall₂_sides (R := SpellsPoint) (Q := fun _ => True)
        (fun x p hp => ⟨fun hx => hp.nests hx, trivial⟩) hpoints).1
    exact fun x hx => hnests x hx (Value.plainIn_items hxs x hx)

theorem spelled_numeric {vs : List Value} {cs : List Command} (h : List.Forall₂ Spells vs cs)
    (hvs : ∀ v ∈ vs, v.writable = true) : ∀ c ∈ cs, c.Numeric :=
  forall₂_carry (fun _ _ hspells => hspells.numeric) h hvs

/-- An item of the form of a command, with finite numbers, spells one. -/
theorem exists_spells (h : CommandForm IsFinite v) : ∃ c, Spells v c := by
  cases h with
  | bare hname =>
    simp only [List.mem_cons, List.not_mem_nil, or_false] at hname
    rcases hname with rfl | rfl | rfl | rfl
    · exact ⟨_, .defaults⟩
    · exact ⟨_, .initializePlotter⟩
    · exact ⟨_, .penUp⟩
    · exact ⟨_, .penDown⟩
  | @named es hnamed =>
    generalize hes : Value.entries es = entries at hnamed
    cases hnamed with
    | selectPen hv =>
      obtain ⟨i, hi, hnonneg⟩ := isPen_iff.mp hv
      exact ⟨_, .selectPen hes hi hnonneg⟩
    | velocity hv => exact ⟨_, .velocity hes hv⟩
    | @plot xs hxs hpairs =>
      obtain ⟨ps, hps⟩ : ∃ ps, List.Forall₂ SpellsPoint (Value.items xs) ps :=
        exists_forall₂ fun x hmem => by
          obtain ⟨hxy, hx, hy⟩ := hpairs x hmem
          exact ⟨_, .pair hxy hx hy⟩
      exact ⟨_, .plot hes ((points_ne_nil hps).mpr hxs) hps⟩

theorem spells_item (h : c.Drawable) : Spells c.item c := by
  cases c with
  | defaults => exact .defaults
  | initializePlotter => exact .initializePlotter
  | penUp => exact .penUp
  | penDown => exact .penDown
  | selectPen pen =>
    obtain ⟨i, rfl, hi⟩ := h
    exact .selectPen rfl rfl hi
  | velocity v =>
    exact .velocity (by simp [Value.entries, IsFinite.detached h]) h
  | plot points =>
    obtain ⟨hpoints, hfinite⟩ := h
    refine .plot rfl hpoints ?_
    rw [Value.items_plain (by simp [Value.detached]), List.forall₂_map_left_iff, List.forall₂_same]
    intro p hp
    obtain ⟨hx, hy⟩ := hfinite p hp
    exact .pair (Value.items_plain (by simp [hx.detached, hy.detached])) hx hy

/-! ## Building -/

theorem finite_eq_ok (h : IsNumber v) {w : Value} :
    finite source place v = .ok w ↔ IsFinite v ∧ w = v := by
  cases v with
  | int i => simp [finite, IsFinite, eq_comm]
  | double x => cases x <;> simp [finite, IsFinite, Double.isFinite, eq_comm]
  | _ => cases h

theorem pen_eq_ok (h : IsPen v) {i : ℤ} : v.toInt = .ok i ↔ v.IsRational i ∧ 0 ≤ i := by
  obtain ⟨j, hj, hnonneg⟩ := isPen_iff.mp h
  rw [Value.toInt_of_isRational hj, Except.ok.injEq]
  constructor
  · rintro rfl
    exact ⟨hj, hnonneg⟩
  · rintro ⟨hi, -⟩
    exact Int.cast_injective (hj.unique hi)

theorem points_eq_ok {vs : List Value} (h : ∀ v ∈ vs, PairForm IsNumber v) {i : ℕ}
    {ps : List Point} : points source place i vs = .ok ps ↔ List.Forall₂ SpellsPoint vs ps := by
  induction vs generalizing i ps with
  | nil => simp [points, eq_comm]
  | cons v vs ih =>
    obtain ⟨@⟨xs, x, y, hxs, hx, hy⟩, hvs⟩ := List.forall_mem_cons.mp h
    have hpair : (Value.list xs).pair = .ok (x, y) := by
      rw [Value.pair, Value.walk, hxs]
    rw [points, hpair, List.forall₂_cons_left_iff]
    simp only [bind_eq_ok, mapError_eq_ok, spellsPoint_iff hxs]
    constructor
    · rintro ⟨both, hboth, a, ha, b, hb, rest, hrest, hps⟩
      cases hboth
      obtain ⟨hx', rfl⟩ := (finite_eq_ok hx).mp ha
      obtain ⟨hy', rfl⟩ := (finite_eq_ok hy).mp hb
      cases hps
      exact ⟨_, rest, ⟨hx', hy', rfl⟩, (ih hvs).mp hrest, rfl⟩
    · rintro ⟨p, rest, ⟨hx', hy', rfl⟩, hrest, rfl⟩
      exact ⟨_, rfl, x, (finite_eq_ok hx).mpr ⟨hx', rfl⟩, y, (finite_eq_ok hy).mpr ⟨hy', rfl⟩, rest,
        (ih hvs).mpr hrest, rfl⟩

theorem command_eq_ok (h : CommandForm IsNumber v) :
    command source place v = .ok c ↔ Spells v c := by
  cases h with
  | @bare name hname =>
    simp only [List.mem_cons, List.not_mem_nil, or_false] at hname
    constructor
    · intro h
      rcases hname with rfl | rfl | rfl | rfl
      all_goals cases h
      · exact .defaults
      · exact .initializePlotter
      · exact .penUp
      · exact .penDown
    · intro h
      cases h <;> rfl
  | @named es hnamed =>
    rw [command]
    constructor
    · intro h
      generalize hes : Value.entries es = entries at hnamed h
      cases hnamed with
      | selectPen hv =>
        obtain ⟨i, hi, hc⟩ := bind_eq_ok.mp h
        obtain ⟨hi, hnonneg⟩ := (pen_eq_ok hv).mp (mapError_eq_ok.mp hi)
        cases hc
        exact .selectPen hes hi hnonneg
      | velocity hv =>
        obtain ⟨w, hw, hc⟩ := bind_eq_ok.mp h
        obtain ⟨hfinite, rfl⟩ := (finite_eq_ok hv).mp hw
        cases hc
        exact .velocity hes hfinite
      | @plot xs hxs hpairs =>
        obtain ⟨items, hitems, h⟩ := bind_eq_ok.mp h
        cases hitems
        obtain ⟨ps, hps, hc⟩ := bind_eq_ok.mp h
        cases hc
        have hpoints := (points_eq_ok hpairs).mp hps
        exact .plot hes ((points_ne_nil hpoints).mpr hxs) hpoints
    · intro h
      cases h with
      | selectPen hes hv hi =>
        rw [hes]
        exact bind_eq_ok.mpr ⟨_, mapError_eq_ok.mpr (Value.toInt_of_isRational hv), rfl⟩
      | velocity hes hv =>
        rw [hes]
        exact bind_eq_ok.mpr ⟨_, (finite_eq_ok (number_of_finite hv)).mpr ⟨hv, rfl⟩, rfl⟩
      | plot hes hps hpoints =>
        rw [hes]
        have hfinite := (forall₂_sides (fun _ _ hp => hp.sides) hpoints).1
        have hforms := fun x hx => (hfinite x hx).imp fun _ => number_of_finite
        exact bind_eq_ok.mpr ⟨_, rfl, bind_eq_ok.mpr ⟨_, (points_eq_ok hforms).mpr hpoints, rfl⟩⟩

theorem commands_eq_ok {vs : List Value} (h : ∀ v ∈ vs, CommandForm IsNumber v) {i : ℕ}
    {cs : List Command} : commands source i vs = .ok cs ↔ List.Forall₂ Spells vs cs := by
  induction vs generalizing i cs with
  | nil => simp [commands, eq_comm]
  | cons v vs ih =>
    obtain ⟨hv, hvs⟩ := List.forall_mem_cons.mp h
    rw [commands, List.forall₂_cons_left_iff]
    simp only [bind_eq_ok, command_eq_ok hv, ih hvs]
    constructor
    · rintro ⟨c, hc, rest, hrest, hcs⟩
      cases hcs
      exact ⟨c, rest, hc, hrest, rfl⟩
    · rintro ⟨c, rest, hc, hrest, rfl⟩
      exact ⟨c, hc, rest, hrest, rfl⟩

/-! ## Jobs -/

theorem build_eq_ok {doc : Value} {cs : List Command} : build source doc = .ok cs ↔
    ∃ es xs, doc = .map es ∧ (∀ e ∈ es, e.1 = .str "commands") ∧
      Value.field? "commands" es = some (.list xs) ∧
      List.Forall₂ Spells (Value.items xs) cs ∧ ∀ x ∈ Value.items xs, x.showable = true := by
  have hbuild {es : List (Value × Value)} {xs : List Value}
      (hxs : Value.field? "commands" es = some (.list xs))
      (hforms : ∀ x ∈ Value.items xs, CommandForm IsNumber x) :
      commands source 0 (itemsOf (.map es)) = .ok cs ↔ List.Forall₂ Spells (Value.items xs) cs := by
    rw [itemsOf, Value.lookup?_entries, hxs]
    exact commands_eq_ok hforms
  simp only [build, bind_eq_ok, check_eq_ok, exists_const, schema_iff]
  constructor
  · rintro ⟨⟨es, xs, rfl, hkeys, hxs, hitems⟩, hcs⟩
    exact ⟨es, xs, rfl, hkeys, hxs, (hbuild hxs fun x hx => (hitems x hx).1).mp hcs,
      fun x hx => (hitems x hx).2⟩
  · rintro ⟨es, xs, rfl, hkeys, hxs, hspells, hshowable⟩
    have hfinite := (forall₂_sides (fun _ _ h => h.sides) hspells).1
    have hforms := fun x hx => (hfinite x hx).imp fun _ => number_of_finite
    exact ⟨⟨es, xs, rfl, hkeys, hxs, fun x hx => ⟨hforms x hx, hshowable x hx⟩⟩,
      (hbuild hxs hforms).mpr hspells⟩

def jobOf (cs : List Command) : Value := .map [(.str "commands", .list (cs.map Command.item))]

theorem build_jobOf {cs : List Command}
    (h : ∀ c ∈ cs, c.Drawable ∧ ∀ v ∈ c.numbers, v.writable = true) :
    build source (jobOf cs) = .ok cs := by
  refine build_eq_ok.mpr ⟨_, _, rfl, by simp, rfl, ?_⟩
  rw [Value.items_plain (List.forall_mem_map.mpr fun c _ => c.detached_item _),
    List.forall₂_map_left_iff, List.forall₂_same, List.forall_mem_map]
  exact ⟨fun c hc => spells_item (h c hc).1, fun c hc => Command.item_showable (h c hc).1 (h c hc).2⟩

/-- The commands of a job are those that its items spell, in order, if it lists nothing else and all
that it lists can be shown; and there is a job for just the commands that can be drawn. An item without
references that spells a command can be shown if only its numbers can be written. -/
theorem build_spells (source : String) :
    (∀ doc cs, build source doc = .ok cs ↔
      ∃ es xs, doc = .map es ∧ (∀ e ∈ es, e.1 = .str "commands") ∧
        Value.field? "commands" es = some (.list xs) ∧
        List.Forall₂ Spells (Value.items xs) cs ∧ ∀ x ∈ Value.items xs, x.showable = true) ∧
      (∀ cs, (∃ doc, build source doc = .ok cs) ↔
        ∀ c ∈ cs, c.Drawable ∧ ∀ v ∈ c.numbers, v.writable = true) ∧
      ∀ x c room, Spells x c → Value.plainIn room x = true →
        (x.showable = true ↔ x.writable = true) := by
  refine ⟨fun doc cs => build_eq_ok, fun cs => ⟨?_, fun h => ⟨_, build_jobOf h⟩⟩,
    fun x c room hspells hplain => ?_⟩
  · rintro ⟨doc, hdoc⟩ c hc
    obtain ⟨es, xs, -, -, -, hspells, hshowable⟩ := build_eq_ok.mp hdoc
    have hwritable := fun x hx => (Value.showable_iff.mp (hshowable x hx)).1
    exact ⟨(forall₂_sides (fun _ _ h => h.sides) hspells).2 c hc,
      fun v hv => (spelled_numeric hspells hwritable c hc v hv).writable⟩
  · rw [Value.showable_iff, and_iff_left (hspells.fits hplain)]

end Job
end PenPlotter
