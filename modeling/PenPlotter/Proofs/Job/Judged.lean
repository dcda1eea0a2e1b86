import PenPlotter.Proofs.Job.Spelled
/-! # What building makes of a document

A program is built where a document has the form of a job and all its numbers are finite. Any other
document is refused, and nothing else goes wrong, as long as the integers in it can be written and its parts
be shown. The numbers are judged in the order of the document, and the first one that is not finite is told
of with its place.
-/
namespace PenPlotter.Job
open Schema

inductive Judged (source : String) (p : Prop) {α : Type} : Except Failure α → Prop
  | built (hp : p) (a : α) : Judged source p (.ok a)
  | refused (hp : ¬ p) (flaw : DocumentFlaw) : Judged source p (.error (.document ⟨.job, source, flaw⟩))

/-! ## Numbers and their places -/

def pointNumbers (place : String) : Value → List (String × Value)
  | .list xs => (Value.items xs).zipIdx.map fun p => (s!"{place}.{p.2}", p.1)
  | _ => []

def itemNumbers (place : String) : Value → List (String × Value)
  | .map es => match Value.entries es with
    | [(.str "velocity", v)] => [(s!"{place}.velocity", v)]
    | [(.str "plot_absolute", .list xs)] => (Value.items xs).zipIdx.flatMap fun p =>
      pointNumbers s!"{place}.plot_absolute.{p.2}" p.1
    | _ => []
  | _ => []

/-- The velocities and coordinates of items in their order, each with its place. -/
def numbersOf (xs : List Value) : List (String × Value) :=
  xs.zipIdx.flatMap fun p => itemNumbers s!"commands.{p.2}" p.1

inductive Reported (source : String) (numbers : List (String × Value)) {α : Type} :
    Except Failure α → Prop
  | built (hnumbers : ∀ n ∈ numbers, IsFinite n.2) (a : α) : Reported source numbers (.ok a)
  | refused {before after : List (String × Value)} {place : String} {x : Double}
      (hnumbers : numbers = before ++ (place, .double x) :: after)
      (hbefore : ∀ n ∈ before, IsFinite n.2) (hx : x.isFinite = false) :
      Reported source numbers (.error (.document ⟨.job, source, .notFinite place x.general⟩))

namespace Reported
variable {source place : String} {numbers more : List (String × Value)} {α β : Type}

theorem ok (a : α) : Reported source [] (.ok a) := .built (List.forall_mem_nil _) a

theorem single {x : Double} (hx : x.isFinite = false) : Reported source [(place, .double x)]
    (.error (.document ⟨.job, source, .notFinite place x.general⟩) : Except Failure α) :=
  .refused (List.nil_append _).symm (List.forall_mem_nil _) hx

theorem bind {r : Except Failure α} {f : α → Except Failure β} (h : Reported source numbers r)
    (hf : ∀ a, r = .ok a → Reported source more (f a)) :
    Reported source (numbers ++ more) (r >>= f) := by
  cases h with
  | built hnumbers a =>
    have hrest := hf a rfl
    change Reported source (numbers ++ more) (f a)
    generalize f a = r at hrest
    cases hrest with
    | built hmore b => exact .built (List.forall_mem_append.mpr ⟨hnumbers, hmore⟩) b
    | refused hmore hbefore hx =>
      exact .refused (by rw [hmore, List.append_assoc])
        (List.forall_mem_append.mpr ⟨hnumbers, hbefore⟩) hx
  | refused hnumbers hbefore hx =>
    exact .refused (by rw [hnumbers, List.append_assoc, List.cons_append]) hbefore hx

theorem map {r : Except Failure α} (h : Reported source numbers r) (f : α → β) :
    Reported source numbers (r >>= fun a => pure (f a)) := by
  rw [← List.append_nil numbers]
  exact h.bind fun a _ => .ok (f a)

end Reported

variable {source place : String} {v : Value}

theorem finite_reported (h : IsNumber v) : Reported source [(place, v)] (finite source place v) := by
  cases v with
  | int i => exact .built (by simp [IsFinite]) _
  | double x =>
    cases x with
    | finite s m e hc => exact .built (by simp [IsFinite, Double.isFinite]) _
    | infinite s => exact .single rfl
    | nan p => exact .single rfl
  | _ => cases h

theorem pen_reported (h : IsPen v) : Reported source [] (v.toInt.mapError .fault) := by
  obtain ⟨i, hi, -⟩ := isPen_iff.mp h
  rw [Value.toInt_of_isRational hi]
  exact .ok i

theorem pointNumbers_pair {xs : List Value} {x y : Value} (hxs : Value.items xs = [x, y]) (i : ℕ) :
    pointNumbers s!"{place}.plot_absolute.{i}" (.list xs) =
      [(s!"{place}.plot_absolute.{i}.0", x)] ++ [(s!"{place}.plot_absolute.{i}.1", y)] := by
  have hplace (k last : String) (hk : "." ++ k = last) :
      place ++ ".plot_absolute." ++ toString i ++ "." ++ k =
        place ++ ".plot_absolute." ++ toString i ++ last := by
    rw [String.append_assoc, hk]
  simp only [pointNumbers, hxs, List.zipIdx_cons, List.zipIdx_nil, List.map_cons, List.map_nil, zero_add]
  exact congrArg₂ (fun a b => [(a, x), (b, y)]) (hplace "0" ".0" rfl) (hplace "1" ".1" rfl)

theorem points_reported {vs : List Value} (h : ∀ v ∈ vs, PairForm IsNumber v) (i : ℕ) :
    Reported source ((vs.zipIdx i).flatMap fun p => pointNumbers s!"{place}.plot_absolute.{p.2}" p.1)
      (points source place i vs) := by
  induction vs generalizing i with
  | nil => exact .ok _
  | cons v vs ih =>
    obtain ⟨@⟨xs, x, y, hxs, hx, hy⟩, hvs⟩ := List.forall_mem_cons.mp h
    have hpair : (Value.list xs).pair = .ok (x, y) := by
      rw [Value.pair, Value.walk, hxs]
    rw [points, hpair, List.zipIdx_cons, List.flatMap_cons, pointNumbers_pair hxs, List.append_assoc]
    exact (finite_reported hx).bind fun _ _ =>
      (finite_reported hy).bind fun _ _ => (ih hvs (i + 1)).map _

theorem command_reported (h : CommandForm IsNumber v) :
    Reported source (itemNumbers place v) (command source place v) := by
  cases h with
  | @bare name hname =>
    obtain ⟨c, hc⟩ : ∃ c, bareCommands.find? (fun b => b.1 == name) = some c := by
      simp only [List.mem_cons, List.not_mem_nil, or_false] at hname
      rcases hname with rfl | rfl | rfl | rfl <;> exact ⟨_, rfl⟩
    rw [command, hc]
    exact .ok c.2
  | @named es hnamed =>
    rw [command, itemNumbers]
    generalize Value.entries es = entries at hnamed
    cases hnamed with
    | selectPen hv => exact (pen_reported hv).map _
    | velocity hv => exact (finite_reported hv).map _
    | plot hxs hpairs => exact (points_reported hpairs 0).map _

theorem commands_reported {vs : List Value} (h : ∀ v ∈ vs, CommandForm IsNumber v) (i : ℕ) :
    Reported source ((vs.zipIdx i).flatMap fun p => itemNumbers s!"commands.{p.2}" p.1)
      (commands source i vs) := by
  induction vs generalizing i with
  | nil => exact .ok _
  | cons v vs ih =>
    obtain ⟨hv, hvs⟩ := List.forall_mem_cons.mp h
    rw [commands, List.zipIdx_cons, List.flatMap_cons]
    exact (command_reported hv).bind fun _ _ => (ih hvs (i + 1)).map _

/-! ## Jobs -/

/-- Where all numbers are finite there are commands that the items spell, and these are what is built. -/
theorem commands_judged {vs : List Value} (h : ∀ v ∈ vs, CommandForm IsNumber v) (i : ℕ) :
    Judged source (∀ v ∈ vs, CommandForm IsFinite v) (commands source i vs) := by
  have hreported : Reported source _ (commands source i vs) := commands_reported h i
  cases hcs : commands source i vs with
  | ok cs => exact .built (forall₂_sides (fun _ _ hc => hc.sides) ((commands_eq_ok h).mp hcs)).1 cs
  | error e =>
    rw [hcs] at hreported
    cases hreported with
    | refused _ _ _ =>
      refine .refused (fun hfinite => ?_) _
      obtain ⟨cs, hspells⟩ := exists_forall₂ fun v hv => exists_spells (hfinite v hv)
      cases hcs.symm.trans ((commands_eq_ok h).mpr hspells)

theorem accepted_judged {doc : Value} (h : accepts schema doc = true) :
    Judged source (JobForm IsFinite doc) (build source doc) := by
  have hnone : firstBreach? schema doc = none := Option.isNone_iff_eq_none.mp h
  have hbuild : build source doc = commands source 0 (itemsOf doc) := by
    rw [build, check, hnone]
    rfl
  obtain ⟨es, xs, rfl, hkeys, hxs, hcommands⟩ := schema_iff.mp h
  have hitems : itemsOf (.map es) = Value.items xs := by
    rw [itemsOf, Value.lookup?_entries, hxs]
  have hform : JobForm IsFinite (.map es) ↔ ∀ v ∈ Value.items xs, CommandForm IsFinite v := by
    constructor
    · rintro ⟨-, hys, hforms⟩
      cases hxs.symm.trans hys
      exact hforms
    · exact .job hkeys hxs
  rw [hbuild, hitems, hform]
  exact commands_judged (fun v hv => (hcommands v hv).1) 0

theorem build_judged {doc : Value} (hdoc : doc.Tellable false) :
    Judged source (JobForm IsFinite doc) (build source doc) := by
  cases hbreach : firstBreach? schema doc with
  | none => exact accepted_judged (by simp [accepts, hbreach])
  | some b =>
    obtain ⟨violation, rfl⟩ := (firstBreach?_toldIf schema_tellable hbreach).exists_ok hdoc
    have hbuild : build source doc = .error (.document ⟨.job, source, .invalid violation⟩) := by
      rw [build, check, hbreach]
      rfl
    rw [hbuild]
    refine .refused (fun hform => ?_) _
    have haccepts := (job_iff hdoc).mpr (hform.imp fun w => number_of_finite)
    rw [accepts, hbreach] at haccepts
    cases haccepts

/-- However much a document nests, it is judged by its form, refused, or met by a limit. -/
theorem build_judged_or (source : String) (doc : Value) :
    Judged source (JobForm IsFinite doc) (build source doc) ∨
      (∃ flaw, build source doc = .error (.document ⟨.job, source, flaw⟩)) ∨
      ∃ f, f.IsLimit ∧ Wordless f schema doc ∧ build source doc = .error (.fault f) := by
  cases hbreach : firstBreach? schema doc with
  | none => exact .inl (accepted_judged (by simp [accepts, hbreach]))
  | some b =>
    right
    rcases b with f | violation
    · refine .inr ⟨f, breach?_isLimit hbreach, hbreach, ?_⟩
      rw [build, check, hbreach]
      rfl
    · refine .inl ⟨.invalid violation, ?_⟩
      rw [build, check, hbreach]
      rfl

/-- A program is built just from what has the form of a job with finite numbers. Anything else is refused
as a document, for the first rule that it breaks or the first number that is not finite. Of a document that
nests too much to be shown, nothing else is built either, but a limit may be met in place of the refusal. -/
theorem build_form_iff (source : String) (doc : Value) (hdoc : doc.writable = true) :
    (doc.Shallow → ((∃ cs, build source doc = .ok cs) ↔ JobForm IsFinite doc) ∧
      (¬ JobForm IsFinite doc →
        ∃ flaw, build source doc = .error (.document ⟨.job, source, flaw⟩))) ∧
    ((∃ cs, build source doc = .ok cs) → JobForm IsFinite doc) ∧
    (¬ JobForm IsFinite doc →
      (∃ flaw, build source doc = .error (.document ⟨.job, source, flaw⟩)) ∨
        ∃ f, f.IsLimit ∧ build source doc = .error (.fault f)) := by
  refine ⟨fun hshallow => ?_, fun ⟨cs, hcs⟩ => ?_, fun hnot => ?_⟩
  · have hjudged : Judged source (JobForm IsFinite doc) (build source doc) :=
      build_judged (.of_shallow hdoc hshallow)
    generalize build source doc = r at hjudged
    cases hjudged with
    | built hform cs => exact ⟨iff_of_true ⟨cs, rfl⟩ hform, fun hnot => absurd hform hnot⟩
    | refused hnot flaw =>
      exact ⟨iff_of_false (fun ⟨cs, hcs⟩ => by cases hcs) hnot, fun _ => ⟨flaw, rfl⟩⟩
  · obtain ⟨es, xs, rfl, hkeys, hxs, hspells, -⟩ := build_eq_ok.mp hcs
    exact .job hkeys hxs (forall₂_sides (fun _ _ hc => hc.sides) hspells).1
  · rcases build_judged_or source doc with hjudged | hrefused | ⟨f, hlimit, -, hf⟩
    · generalize build source doc = r at hjudged
      cases hjudged with
      | built hform => exact absurd hform hnot
      | refused _ flaw => exact .inl ⟨flaw, rfl⟩
    · exact .inl hrefused
    · exact .inr ⟨f, hlimit, hf⟩

def boundlessJob : Value :=
  .map [(.str "commands", .list [.str "pen_down", .map [(.str "velocity", .double (.infinite false))]])]

theorem build_form_iff_boundless :
    ((∃ cs, build "<job>" boundlessJob = .ok cs) ↔ JobForm IsFinite boundlessJob) ∧
      (¬ JobForm IsFinite boundlessJob →
        ∃ flaw, build "<job>" boundlessJob = .error (.document ⟨.job, "<job>", flaw⟩)) :=
  have hplain : boundlessJob.plainIn 5 = true := by decide +kernel
  (build_form_iff "<job>" boundlessJob rfl).1 (.of_plainIn hplain (by decide))

/-- That its integers can be written does not make a document shallow enough to be judged. -/
theorem build_unjudged_nested :
    ¬ ∀ (source : String) (doc : Value), doc.writable = true →
      ((∃ cs, build source doc = .ok cs) ↔ JobForm IsFinite doc) ∧
        (¬ JobForm IsFinite doc →
          ∃ flaw, build source doc = .error (.document ⟨.job, source, flaw⟩)) := by
  intro h
  have hwritable : (Value.map [(.str "commands", .list [nestedItem])]).writable = true := by
    rw [Value.writable, Value.writableEntries, Value.writable, Value.writableAll, nestedItem_writable]
    rfl
  obtain ⟨hbuilt, hrefused⟩ := h "job.yaml" _ hwritable
  obtain ⟨during, hfault⟩ := build_nestedItem "job.yaml" rfl (List.forall_mem_nil _)
  rw [List.nil_append] at hfault
  rw [hfault] at hbuilt hrefused
  have hform : ¬ JobForm IsFinite (.map [(.str "commands", .list [nestedItem])]) :=
    fun hform => nomatch (hbuilt.mpr hform).choose_spec
  obtain ⟨flaw, hflaw⟩ := hrefused hform
  cases hflaw

end PenPlotter.Job
