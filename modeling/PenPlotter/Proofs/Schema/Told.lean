import PenPlotter.Proofs.Schema.Compared
import PenPlotter.Schema.Violation
/-! # Breaches that can be told

The message on a broken rule shows the value, some of its keys or the choices that the schema names. So
it can be written wherever these can be shown, and otherwise it lacks because of an integer's digits or
of the limit on nested calls. Where the items of a list must differ, comparing them may exceed that limit
too.
-/
namespace PenPlotter

namespace Value

/-- A value of which everything that is taken out can be shown, and its items compared if `compared`. -/
structure Tellable (compared : Bool) (v : Value) : Prop where
  writable : v.writable = true
  shallow : v.Shallow
  settled : compared = true → ∀ xs, Part v (.list xs) → ∃ b, unique xs = .ok b

namespace Tellable
variable {compared : Bool} {v : Value}

/-- There are no limits for a value of few enough parts within each other. -/
theorem of_plainIn {room : Nat} (hw : v.writable = true) (h : plainIn room v = true)
    (hroom : room ≤ equalRoom) : v.Tellable compared where
  writable := hw
  shallow := .of_plainIn h (Nat.le_trans hroom (by decide))
  settled := fun _ _ hpart =>
    (unique_toldIf_plain _).exists_ok (plainIn_mono hroom (plainIn_part h hpart))

theorem of_shallow (hw : v.writable = true) (h : v.Shallow) : v.Tellable false where
  writable := hw
  shallow := h
  settled := nofun

theorem showable (h : v.Tellable compared) : v.showable = true :=
  showable_iff.mpr ⟨h.writable, h.shallow.whole⟩

theorem items {xs : List Value} (h : (Value.list xs).Tellable compared) :
    ∀ x ∈ Value.items xs, x.Tellable compared := fun x hx =>
  { writable := items_writable h.writable x hx
    shallow := h.shallow.items x hx
    settled := fun hc ys hpart => h.settled hc ys (.item hx hpart) }

theorem field {es : List (Value × Value)} (h : (Value.map es).Tellable compared) {name : String}
    {x : Value} (hx : field? name es = some x) : x.Tellable compared where
  writable := field?_writable h.writable hx
  shallow := h.shallow.field hx
  settled := fun hc ys hpart => h.settled hc ys (.field hx hpart)

theorem key {es : List (Value × Value)} (h : (Value.map es).Tellable compared) :
    ∀ e ∈ es, e.1.writable = true ∧ e.1.fits = true := by
  have hentries := h.writable
  rw [Value.writable, writableEntries_iff] at hentries
  exact fun e he => ⟨(hentries e he).1, fits_key h.shallow.whole e he⟩

end Tellable

end Value

namespace Rule

mutual
def tellable (compared : Bool) : Rule → Bool
  | .enum choices => Value.writableAll choices && (Value.list choices).fits
  | .const choice => choice.writable && choice.fits
  | .unique => compared
  | .properties ps => tellableProperties compared ps
  | .items rules => tellableRules compared rules
  | .anyOf choices => tellableChoices compared choices
  | _ => true
def tellableRules (compared : Bool) : List Rule → Bool
  | [] => true
  | rule :: rules => tellable compared rule && tellableRules compared rules
def tellableProperties (compared : Bool) : List (String × List Rule) → Bool
  | [] => true
  | (_, rules) :: rest => tellableRules compared rules && tellableProperties compared rest
def tellableChoices (compared : Bool) : List (List Rule) → Bool
  | [] => true
  | rules :: rest => tellableRules compared rules && tellableChoices compared rest
end

end Rule

variable {compared : Bool} {v : Value} {p : Prop}

theorem unexpectedKeys_toldIf {keys : List Value}
    (hp : ∀ k ∈ keys, p → k.writable = true ∧ k.fits = true) :
    ToldIf p (unexpectedKeys keys) := by
  have hnamed : ∀ k ∈ keys, ToldIf p
      (do return ((← k.textCodes).map Text.Code.toNat, k) : Except Fault (List Nat × Value)) :=
    fun k hk => (ToldIf.of_shownIf (Value.textCodes_shownIf k) (hp k hk)).map _
  refine (ToldIf.mapM hnamed).bind fun named hok => ?_
  have hkeys : ∀ k ∈ named, k.2 ∈ keys := by
    intro k hk
    have hmem : (.ok k : Except Fault (List Nat × Value)) ∈ named.map .ok := List.mem_map_of_mem hk
    rw [← mapM_eq_ok.mp hok] at hmem
    obtain ⟨key, hkey, htext⟩ := List.mem_map.mp hmem
    obtain ⟨s, -, hpair⟩ := bind_eq_ok.mp htext
    cases hpair
    exact hkey
  have hsorted : ∀ k ∈ named.mergeSort fun a b => Text.inOrder a.1 b.1,
      ToldIf p k.2.shown :=
    fun k hk => Value.shown_toldIf (hp k.2 (hkeys k (List.mem_mergeSort.mp hk)))
  exact (ToldIf.mapM hsorted).bind fun shown _ => .ok _

namespace Breach

theorem message_toldIf {text : Except Fault (List Char)} (h : ToldIf p text) :
    ToldIf p (message text) :=
  h.map _

theorem about_toldIf {words : String}
    (hp : p → v.writable = true ∧ v.fits = true) : ToldIf p (about v words) :=
  message_toldIf ((Value.shown_toldIf hp).map _)

theorem within_toldIf {step : String} {b : Breach} (h : ToldIf p b) : ToldIf p (b.within step) :=
  h.map _

end Breach

/-- The breaches of a rule that looks at the value alone can be told. -/
theorem Rule.ownBreaches_toldIf {rule : Rule} {b : Breach} (hb : b ∈ rule.ownBreaches v) :
    ToldIf (rule.tellable compared = true ∧ v.Tellable compared) b := by
  have habout {words : String} :
      ToldIf (rule.tellable compared = true ∧ v.Tellable compared) (Breach.about v words) :=
    Breach.about_toldIf fun hp => Value.showable_iff.mp hp.2.showable
  cases rule with
  | closed names =>
    cases v with
    | map es =>
      simp only [ownBreaches] at hb
      split at hb
      · cases hb
      · rw [List.mem_singleton.mp hb]
        refine Breach.message_toldIf (unexpectedKeys_toldIf fun k hk hw => ?_)
        obtain ⟨e, he, rfl⟩ := List.mem_map.mp (List.mem_filter.mp hk).1
        exact hw.2.key e he
    | _ => cases hb
  | required names =>
    cases v with
    | map es =>
      obtain ⟨n, -, rfl⟩ := List.mem_map.mp hb
      exact Breach.message_toldIf (.ok _)
    | _ => cases hb
  | enum choices =>
    simp only [ownBreaches] at hb
    split at hb
    · cases hb
    · rw [List.mem_singleton.mp hb]
      have hchoices : ToldIf ((enum choices).tellable compared = true ∧ v.Tellable compared)
          (Value.list choices).shown := Value.shown_toldIf fun hp => Bool.and_eq_true_iff.mp hp.1
      have hvalue : ToldIf ((enum choices).tellable compared = true ∧ v.Tellable compared) v.shown :=
        Value.shown_toldIf fun hp => Value.showable_iff.mp hp.2.showable
      exact Breach.message_toldIf (hvalue.bind fun _ _ => hchoices.map _)
  | const choice =>
    simp only [ownBreaches] at hb
    split at hb
    · cases hb
    · rw [List.mem_singleton.mp hb]
      exact Breach.message_toldIf
        ((Value.shown_toldIf fun hp => Bool.and_eq_true_iff.mp hp.1).map _)
  | unique =>
    cases v with
    | list xs =>
      have hsettled : ToldIf (unique.tellable compared = true ∧ (Value.list xs).Tellable compared)
          (Value.unique xs) :=
        (Value.unique_toldIf xs).imp fun hp => hp.2.settled hp.1 xs (.whole _)
      simp only [ownBreaches] at hb
      split at hb
      next => cases hb
      next =>
        rw [List.mem_singleton.mp hb]
        exact habout
      next f hf =>
        rw [List.mem_singleton.mp hb]
        rw [hf] at hsettled
        cases hsettled with
        | error hp hlimit => exact .error hp hlimit
    | _ => cases hb
  | properties _ | items _ | anyOf _ => cases hb
  | _ =>
    simp only [ownBreaches] at hb
    repeat' split at hb
    all_goals first
      | exact absurd hb List.not_mem_nil
      | (rw [List.mem_singleton.mp hb]; exact habout)

namespace Schema

mutual
theorem ruleBreach?_toldIf : (rule : Rule) → ∀ (wanted : Breach → Bool) (v : Value) (b : Breach),
    ruleBreach? wanted rule v = some b → ToldIf (rule.tellable compared = true ∧ v.Tellable compared) b
  | .properties ps => by
    intro wanted v b hb
    cases v with
    | map es => exact propertyBreach?_toldIf ps _ _ _ hb
    | _ => cases hb
  | .items rules => by
    intro wanted v b hb
    cases v with
    | list xs =>
      obtain ⟨⟨x, i⟩, hx, hbreach⟩ := List.exists_of_findSome?_eq_some hb
      obtain ⟨inner, hinner, rfl⟩ := Option.map_eq_some_iff.mp hbreach
      have hitem : Value.detached (.list xs) x ∈ Value.items xs :=
        List.mem_map_of_mem (List.fst_mem_of_mem_zipIdx hx)
      exact Breach.within_toldIf ((breach?_toldIf rules _ _ _ hinner).imp fun hw =>
        ⟨hw.1, hw.2.items _ hitem⟩)
    | _ => cases hb
  | .anyOf choices => by
    intro wanted v b hb
    obtain ⟨hchoice, -⟩ := Option.filter_eq_some_iff.mp hb
    exact choiceBreach?_toldIf choices _ _ hchoice
  | .kinds _ | .closed _ | .required _ | .enum _ | .const _ | .minimum _ | .maximum _ | .above _
  | .minItems _ | .maxItems _ | .unique | .minEntries _ | .maxEntries _ | .minLength _
  | .form _ => by
    intro wanted v b hb
    exact Rule.ownBreaches_toldIf (List.mem_of_find?_eq_some hb)
theorem breach?_toldIf : (rules : List Rule) → ∀ (wanted : Breach → Bool) (v : Value) (b : Breach),
    breach? wanted rules v = some b →
      ToldIf (Rule.tellableRules compared rules = true ∧ v.Tellable compared) b
  | [] => nofun
  | rule :: rules => by
    intro wanted v b hb
    rw [Rule.tellableRules, Bool.and_eq_true]
    rw [breach?] at hb
    split at hb
    next hrule =>
      cases hb
      exact (ruleBreach?_toldIf rule _ _ _ hrule).imp fun hw => ⟨hw.1.1, hw.2⟩
    next => exact (breach?_toldIf rules _ _ _ hb).imp fun hw => ⟨hw.1.2, hw.2⟩
theorem propertyBreach?_toldIf : (ps : List (String × List Rule)) →
    ∀ (wanted : Breach → Bool) (es : List (Value × Value)) (b : Breach),
    propertyBreach? wanted ps es = some b →
      ToldIf (Rule.tellableProperties compared ps = true ∧ (Value.map es).Tellable compared) b
  | [] => nofun
  | (name, rules) :: rest => by
    intro wanted es b hb
    rw [Rule.tellableProperties, Bool.and_eq_true]
    rw [propertyBreach?] at hb
    split at hb
    next inner hfield =>
      cases hb
      obtain ⟨x, hx, hinner⟩ := Option.bind_eq_some_iff.mp hfield
      exact Breach.within_toldIf ((breach?_toldIf rules _ _ _ hinner).imp fun hw =>
        ⟨hw.1.1, hw.2.field hx⟩)
    next => exact (propertyBreach?_toldIf rest _ _ _ hb).imp fun hw => ⟨hw.1.2, hw.2⟩
theorem choiceBreach?_toldIf : (choices : List (List Rule)) → ∀ (v : Value) (b : Breach),
    choiceBreach? choices v = some b →
      ToldIf (Rule.tellableChoices compared choices = true ∧ v.Tellable compared) b
  | [] => by
    intro v b hb
    cases hb
    exact Breach.about_toldIf fun hw => Value.showable_iff.mp hw.2.showable
  | rules :: rest => by
    intro v b hb
    rw [Rule.tellableChoices, Bool.and_eq_true]
    rw [choiceBreach?] at hb
    split at hb
    next => cases hb
    next =>
      split at hb
      next hfault =>
        cases hb
        exact (breach?_toldIf rules _ _ _ hfault).imp fun hw => ⟨hw.1.1, hw.2⟩
      next => exact (choiceBreach?_toldIf rest _ _ hb).imp fun hw => ⟨hw.1.2, hw.2⟩
end

/-- The first breach of a value is a violation with its message, unless a limit is met. -/
theorem firstBreach?_toldIf {s : Schema} (hs : Rule.tellableRules compared s = true) {b : Breach}
    (hb : firstBreach? s v = some b) : ToldIf (v.Tellable compared) b :=
  (breach?_toldIf s _ _ _ hb).imp fun hv => ⟨hs, hv⟩

/-- A breach that cannot be told is one of a limit. -/
theorem breach?_isLimit {s : Schema} {wanted : Breach → Bool} {f : Fault}
    (hb : breach? wanted s v = some (.error f)) : f.IsLimit :=
  have htold : ToldIf (Rule.tellableRules true s = true ∧ v.Tellable true) (.error f : Breach) :=
    breach?_toldIf s wanted v _ hb
  htold.isLimit

end Schema

end PenPlotter
