import PenPlotter.Proofs.Job.Judged
import PenPlotter.Proofs.Schema.Wordless
/-! # How building a job ends

A job is built or the document is refused, but for what the interpreter has no room for. A refusal shows
what it is about, and an integer of too many digits cannot be shown, nor can a value with too many values
within each other: that is a fault in place of the refusal. Commands with a parameter are shown too, for
they are first tried as commands without one; so such an integer is met in any command, a good one or
not.
-/
namespace PenPlotter.Job
open Schema

inductive Announced (source : String) : Except Failure (List Command) → Prop
  | built (cs : List Command) : Announced source (.ok cs)
  | refused (flaw : DocumentFlaw) : Announced source (.error (.document ⟨.job, source, flaw⟩))

/-- The documents of which the first thing to be told holds an integer of too many digits. -/
inductive Unshowable : Value → Prop
  | document {doc : Value} (hmap : ∀ es, doc ≠ .map es) (h : doc.writable = false) : Unshowable doc
  | key {es : List (Value × Value)} {e : Value × Value} (he : e ∈ es) (h : e.1.writable = false) :
      Unshowable (.map es)
  | list {es : List (Value × Value)} {x : Value} (hkeys : ∀ e ∈ es, e.1 = .str "commands")
      (hx : Value.field? "commands" es = some x) (hlist : ∀ xs, x ≠ .list xs)
      (h : x.writable = false) : Unshowable (.map es)
  /-- All commands before are good ones and can be shown. -/
  | command {es : List (Value × Value)} {xs before after : List Value} {x : Value}
      (hkeys : ∀ e ∈ es, e.1 = .str "commands")
      (hxs : Value.field? "commands" es = some (.list xs))
      (hitems : Value.items xs = before ++ x :: after)
      (hbefore : ∀ y ∈ before, CommandForm IsNumber y ∧ y.writable = true)
      (h : x.writable = false) : Unshowable (.map es)

variable {source : String} {f : Fault} {v doc : Value}

theorem not_announced_fault : ¬ Announced source (.error (.fault f)) := by
  rintro ⟨⟩

theorem Judged.announced {p : Prop} {r : Except Failure (List Command)} (h : Judged source p r) :
    Announced source r := by
  cases h with
  | built _ cs => exact .built cs
  | refused _ flaw => exact .refused flaw

/-- A command cannot be told of just where it cannot be shown: it is shown first of all, unless it is
one without a parameter. -/
theorem command_wordless_iff (hv : v.Shallow) :
    Wordless f commandSchema v ↔ v.writable = false ∧ f = .tooManyDigits := by
  have hfault (hw : v.writable = false) : Wordless .tooManyDigits commandSchema v :=
    command_fault (((Value.shown_shownIf v).error_iff hv.whole).mpr ⟨hw, rfl⟩)
  constructor
  · intro h
    have hw : v.writable = false := by
      by_contra hw
      rw [Bool.not_eq_false] at hw
      have htellable : v.Tellable false := .of_shallow hw hv
      exact not_wordless rfl htellable h
    have hsame := h.symm.trans (hfault hw)
    cases hsame
    exact ⟨hw, rfl⟩
  · rintro ⟨hw, rfl⟩
    exact hfault hw

theorem commands_wordless_iff {x : Value} (hx : x.Shallow) :
    Wordless f [.kinds [.array], .items commandSchema] x ↔
      ((∀ xs, x ≠ .list xs) ∧ x.writable = false ∨
        ∃ xs before y after, x = .list xs ∧ Value.items xs = before ++ y :: after ∧
          (∀ z ∈ before, CommandForm IsNumber z ∧ z.writable = true) ∧ y.writable = false) ∧
      f = .tooManyDigits := by
  rw [wordless_cons, wordless_cons, Rule.wordless_kinds hx.whole, Rule.kept_kinds]
  simp only [List.mem_singleton, exists_eq_left, not_wordless_nil, and_false, or_false]
  cases x with
  | list xs =>
    have hitems {before after : List Value} {y : Value}
        (h : Value.items xs = before ++ y :: after) :
        ((∀ z ∈ before, accepts commandSchema z = true) ∧ Wordless f commandSchema y) ↔
          ((∀ z ∈ before, CommandForm IsNumber z ∧ z.writable = true) ∧ y.writable = false) ∧
            f = .tooManyDigits := by
      have hshallow := hx.items
      simp only [h, List.forall_mem_append, List.forall_mem_cons] at hshallow
      rw [command_wordless_iff hshallow.2.1, ← and_assoc]
      refine and_congr_left fun _ => ?_
      refine and_congr_left fun _ => forall₂_congr fun z hz => ?_
      rw [commandSchema_iff, Value.showable_iff, and_iff_left (hshallow.1 z hz).whole]
    have hlist : ¬ ∀ ys, Value.list xs ≠ .list ys := fun h => h xs rfl
    have harray : Kind.array.holds (.list xs) = true := rfl
    rw [Rule.wordless_items, or_iff_right (by simp [harray]), and_iff_right harray,
      or_iff_right fun h => hlist h.1]
    constructor
    · rintro ⟨before, y, after, hsplit, h⟩
      obtain ⟨h, hf⟩ := (hitems hsplit).mp h
      exact ⟨⟨xs, before, y, after, rfl, hsplit, h⟩, hf⟩
    · rintro ⟨⟨ys, before, y, after, hys, hsplit, h⟩, hf⟩
      cases hys
      exact ⟨before, y, after, hsplit, (hitems hsplit).mpr ⟨h, hf⟩⟩
  | _ => simp [Kind.holds]

/-- The first breach of a document cannot be told just where the document is not to be shown. -/
theorem wordless_iff (hdoc : doc.Shallow) :
    Wordless f schema doc ↔ Unshowable doc ∧ f = .tooManyDigits := by
  rw [schema, wordless_cons, wordless_cons, wordless_cons, wordless_cons,
    Rule.wordless_kinds hdoc.whole, Rule.kept_kinds]
  simp only [List.mem_singleton, exists_eq_left, not_wordless_nil, and_false, or_false,
    Rule.not_wordless_required, false_or]
  constructor
  · rintro (⟨hobject, hw, hf⟩ | ⟨hobject, hrest⟩)
    · exact ⟨.document (by rintro es rfl; exact hobject rfl) hw, hf⟩
    · cases doc with
      | map es =>
        rw [Rule.wordless_closed hdoc.whole, Rule.kept_closed, Rule.wordless_property] at hrest
        rcases hrest with ⟨⟨e, he, hkey⟩, hf⟩ | ⟨hkeys, -, x, hx, hcommands⟩
        · exact ⟨.key he hkey, hf⟩
        · simp only [List.mem_singleton, exists_eq_left] at hkeys
          rcases (commands_wordless_iff (hdoc.field hx)).mp hcommands with
            ⟨⟨hlist, hv⟩ | ⟨xs, before, y, after, rfl, hitems, hbefore, hy⟩, hf⟩
          · exact ⟨.list hkeys hx hlist hv, hf⟩
          · exact ⟨.command hkeys hx hitems hbefore hy, hf⟩
      | _ => cases hobject
  · rintro ⟨h, hf⟩
    have hcommands {es : List (Value × Value)} {x : Value} (hkeys : ∀ e ∈ es, e.1 = .str "commands")
        (hx : Value.field? "commands" es = some x)
        (hwordless : Wordless f [.kinds [.array], .items commandSchema] x) :
        (Rule.closed ["commands"]).Wordless f (.map es) ∨ (Rule.closed ["commands"]).Kept (.map es) ∧
          (Rule.required ["commands"]).Kept (.map es) ∧
          (Rule.properties [("commands", [.kinds [.array], .items commandSchema])]).Wordless f
            (.map es) := by
      rw [Rule.kept_closed, Rule.kept_required, Rule.wordless_property]
      exact .inr ⟨fun e he => ⟨_, List.mem_singleton_self _, hkeys e he⟩,
        List.forall_mem_singleton.mpr ⟨x, hx⟩, x, hx, hwordless⟩
    cases h with
    | document hmap hw =>
      left
      refine ⟨fun hobject => ?_, hw, hf⟩
      cases doc with
      | map es => exact hmap es rfl
      | _ => cases hobject
    | key he hkey =>
      exact .inr ⟨rfl, .inl ((Rule.wordless_closed hdoc.whole).mpr ⟨⟨_, he, hkey⟩, hf⟩)⟩
    | list hkeys hx hlist hv =>
      exact .inr ⟨rfl, hcommands hkeys hx
        ((commands_wordless_iff (hdoc.field hx)).mpr ⟨.inl ⟨hlist, hv⟩, hf⟩)⟩
    | command hkeys hxs hitems hbefore hv =>
      exact .inr ⟨rfl, hcommands hkeys hxs ((commands_wordless_iff (hdoc.field hxs)).mpr
        ⟨.inr ⟨_, _, _, _, rfl, hitems, hbefore, hv⟩, hf⟩)⟩

theorem Unshowable.unwritable (h : Unshowable doc) : doc.writable = false := by
  by_contra hdoc
  rw [Bool.not_eq_false] at hdoc
  cases h with
  | document hmap h => simp [hdoc] at h
  | key he h =>
    rw [Value.writable, Value.writableEntries_iff] at hdoc
    simp [(hdoc _ he).1] at h
  | list hkeys hx hlist h => simp [Value.field?_writable hdoc hx] at h
  | command hkeys hxs hitems hbefore h =>
    have hall := Value.items_writable (Value.field?_writable hdoc hxs)
    rw [hitems] at hall
    simp [hall _ (List.mem_append_right _ List.mem_cons_self)] at h

/-- Building ends as announced, or in the fault that stands in place of the first breach. -/
theorem build_announced_or (source : String) (doc : Value) :
    Announced source (build source doc) ∨
      ∃ f, f.IsLimit ∧ Wordless f schema doc ∧ build source doc = .error (.fault f) := by
  rcases build_judged_or source doc with hjudged | ⟨flaw, hrefused⟩ | hfault
  · exact .inl hjudged.announced
  · exact .inl (hrefused ▸ .refused flaw)
  · exact .inr hfault

/-- Building ends as announced or in the fault of a limit. Of the limits, a shallow document meets only
that on digits, and just where it cannot be shown as far as that is needed; and there is no such integer
in a document that can be written as a whole. -/
theorem build_announced_iff_showable (source : String) (doc : Value) :
    (Announced source (build source doc) ∨
      ∃ f, f.IsLimit ∧ build source doc = .error (.fault f)) ∧
    (doc.Shallow → (Announced source (build source doc) ↔ ¬ Unshowable doc) ∧
      (Unshowable doc → build source doc = .error (.fault .tooManyDigits))) ∧
    (doc.writable = true → ¬ Unshowable doc) := by
  have hends := build_announced_or source doc
  refine ⟨hends.imp_right fun ⟨f, hlimit, _, hf⟩ => ⟨f, hlimit, hf⟩, fun hdoc => ?_, fun hw h => ?_⟩
  · have hfault (h : Unshowable doc) : build source doc = .error (.fault .tooManyDigits) := by
      have hbreach : firstBreach? schema doc = _ := (wordless_iff hdoc).mpr ⟨h, rfl⟩
      rw [build, check, hbreach]
      rfl
    refine ⟨⟨fun hannounced h => ?_, fun h => ?_⟩, hfault⟩
    · rw [hfault h] at hannounced
      exact not_announced_fault hannounced
    · exact hends.resolve_right fun ⟨f, _, hbreach, _⟩ => h ((wordless_iff hdoc).mp hbreach).1
  · simp [h.unwritable] at hw

def endlessJob : Value := .map [(.str "commands", .int (tenTo digitLimit))]

theorem build_unannounced_digits :
    ¬ ∀ (source : String) (doc : Value), Announced source (build source doc) := by
  intro h
  have hfault : error? (build "<job>" endlessJob) = some (.fault .tooManyDigits) := by
    decide +kernel
  have hannounced := h "<job>" endlessJob
  rw [error?_eq_some hfault] at hannounced
  exact not_announced_fault hannounced

end PenPlotter.Job
