import PenPlotter.Proofs.Result
import PenPlotter.Proofs.Value.Shown
import PenPlotter.Serial.Options
/-! # Settings that a line supports

A line supports the parities, stop bits and flow controls that it knows. The first setting that it does
not know decides: the refusal shows that setting, and where it holds an integer of too many digits the
fault of showing it comes instead.
-/
namespace PenPlotter

namespace Value

mutual
def hashable : Value → Bool
  | .list _ | .set _ | .map _ | .back .. => false
  | .tuple xs => hashableAll xs
  | .knot _ v => hashable v
  | _ => true
def hashableAll : List Value → Bool
  | [] => true
  | x :: xs => hashable x && hashableAll xs
end

theorem keyFault?_of_hashable {v : Value} (h : v.hashable = true) : v.keyFault? = none := by
  cases v <;> first | rfl | (simp [hashable] at h)

end Value

namespace Settings

structure Hashable (s : Settings) : Prop where
  parity : s.parity.hashable = true
  stopbits : s.stopbits.hashable = true
  flowControl : s.flowControl.hashable = true

/-- The settings that must be among those that a line knows, each with what it may be, in the order in
which they are looked up. -/
def lookups (s : Settings) : List (Value × List Value) :=
  [(s.parity, (byName Parity.named).map (·.1)),
    (s.stopbits, ([StopBits.one, .onePointFive, .two].map fun b => (b.value, b)).map (·.1)),
    (s.flowControl, (byName FlowControl.named).map (·.1))]

def firstUnknown (ps : List (Value × List Value)) : Option Value :=
  (ps.find? fun p => !p.2.any p.1.same).map (·.1)

def unsupported? (s : Settings) : Option Value := firstUnknown s.lookups

theorem firstUnknown_known {v : Value} {known : List Value} {ps : List (Value × List Value)}
    (h : known.any v.same = true) : firstUnknown ((v, known) :: ps) = firstUnknown ps := by
  simp only [firstUnknown, List.find?_cons, h, Bool.not_true]

theorem firstUnknown_unknown {v : Value} {known : List Value} {ps : List (Value × List Value)}
    (h : known.any v.same = false) : firstUnknown ((v, known) :: ps) = some v := by
  simp only [firstUnknown, List.find?_cons, h, Bool.not_false, Option.map_some]

inductive Chosen {α : Type} (v : Value) (known : List Value) : Except Failure α → Prop
  | found (x : α) (h : known.any v.same = true) : Chosen v known (.ok x)
  | refused {e : TransportError} (h : known.any v.same = false) (hv : v.showable = true)
      (he : e.kind = .connect) : Chosen v known (.error (.transport e))
  | untold {f : Fault} (h : known.any v.same = false) (hv : v.showable = false) (hf : f.IsLimit) :
      Chosen v known (.error (.fault f))

theorem choose_eq {α : Type} {v : Value} (hv : v.hashable = true) (choices : List (Value × α)) :
    v.choose choices = .ok ((choices.find? fun c => v.same c.1).map (·.2)) := by
  rw [Value.choose, Value.keyFault?_of_hashable hv]

theorem any_known {α : Type} (v : Value) (choices : List (Value × α)) :
    (choices.map (·.1)).any v.same = (choices.find? fun c => v.same c.1).isSome := by
  rw [List.any_map, List.isSome_find?]
  rfl

def choosing {α : Type} (v : Value) (choices : List (Value × α)) (shown : Except Fault (List Char))
    (refusal : List Char → TransportError) : Except Failure α :=
  match v.choose choices with
  | .error f => .error (.fault f)
  | .ok (some x) => .ok x
  | .ok none => match shown with
    | .ok s => .error (.transport (refusal s))
    | .error f => .error (.fault f)

theorem choosing_chosen {α : Type} {v : Value} (hv : v.hashable = true)
    (choices : List (Value × α)) {shown : Except Fault (List Char)}
    {refusal : List Char → TransportError} (hs : Value.ShownIf v.writable v.fits shown)
    (he : ∀ t, (refusal t).kind = .connect) :
    Chosen v (choices.map (·.1)) (choosing v choices shown refusal) := by
  have hany := any_known v choices
  unfold choosing
  rw [choose_eq hv]
  cases hf : choices.find? fun c => v.same c.1 with
  | some c =>
    rw [hf] at hany
    exact .found _ hany
  | none =>
    rw [hf] at hany
    have htold := hs.toldIf
    generalize hshown : shown = text at htold
    cases htold with
    | ok t => exact .refused hany (hs.showable_of_ok hshown) (he t)
    | error hv hf => exact .untold hany (Bool.not_eq_true _ ▸ hv) hf

theorem required_chosen {α : Type} {v : Value} (hv : v.hashable = true)
    (choices : List (Value × α)) : Chosen v (choices.map (·.1)) (required v choices) :=
  choosing_chosen hv choices v.shown_shownIf fun _ => rfl

def flow (s : Settings) : Except Failure FlowControl :=
  choosing s.flowControl (byName FlowControl.named) s.flowControl.text .unsupportedFlow

theorem flow_chosen {s : Settings} (hs : s.flowControl.hashable = true) :
    Chosen s.flowControl ((byName FlowControl.named).map (·.1)) s.flow :=
  choosing_chosen hs _ s.flowControl.text_shownIf fun _ => rfl

theorem options_eq (s : Settings) :
    s.options = (do
      let parity ← required s.parity (byName Parity.named)
      let stopBits ← required s.stopbits
        ([StopBits.one, .onePointFive, .two].map fun b => (b.value, b))
      let flow ← s.flow
      return { baudrate := s.baudrate, bytesize := s.bytesize, parity, stopBits, flow,
               timeout := s.timeout, writeTimeout := s.writeTimeout }) := by
  unfold options flow choosing
  rcases s.flowControl.choose (byName FlowControl.named) with f | _ | x
  · rfl
  · rcases s.flowControl.text with f | t <;> rfl
  · rfl

/-- What lookups come to: a result, a refusal of the first value that is not known, or the fault of
showing it. -/
inductive Outcome {α : Type} (ps : List (Value × List Value)) : Except Failure α → Prop
  | ok (a : α) (h : firstUnknown ps = none) : Outcome ps (.ok a)
  | refused {v : Value} {e : TransportError} (h : firstUnknown ps = some v)
      (hv : v.showable = true) (he : e.kind = .connect) : Outcome ps (.error (.transport e))
  | untold {v : Value} {f : Fault} (h : firstUnknown ps = some v) (hv : v.showable = false)
      (hf : f.IsLimit) : Outcome ps (.error (.fault f))

theorem Chosen.bind {α β : Type} {v : Value} {known : List Value} {ps : List (Value × List Value)}
    {r : Except Failure α} {f : α → Except Failure β} (h : Chosen v known r)
    (hf : ∀ a, Outcome ps (f a)) : Outcome ((v, known) :: ps) (r >>= f) := by
  cases h with
  | refused h hv he => exact .refused (firstUnknown_unknown h) hv he
  | untold h hv hf => exact .untold (firstUnknown_unknown h) hv hf
  | found a h =>
    have hrest := hf a
    change Outcome _ (f a)
    generalize f a = rest at hrest
    cases hrest with
    | ok b hb => exact .ok b ((firstUnknown_known h).trans hb)
    | refused hb hv he => exact .refused ((firstUnknown_known h).trans hb) hv he
    | untold hb hv hf => exact .untold ((firstUnknown_known h).trans hb) hv hf

theorem options_outcome {s : Settings} (hs : s.Hashable) : Outcome s.lookups s.options := by
  rw [options_eq]
  exact (required_chosen hs.parity _).bind fun _ => (required_chosen hs.stopbits _).bind fun _ =>
    (flow_chosen hs.flowControl).bind fun _ => .ok _ rfl

end Settings

end PenPlotter
