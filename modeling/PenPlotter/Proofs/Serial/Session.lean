import PenPlotter.Proofs.Result
import PenPlotter.Serial.Steps
/-! # The course of a session

A session is refused for its settings, fails to open, or runs its body; in the last case it is closed at
the end, and flushed before only where the body ends well.
-/
namespace PenPlotter.Line

/-- A note changes nothing of a line but its log. -/
theorem say_eq (l : Line) (level : LogLevel) (message : String) :
    ∃ log, l.say level message = { l with log } := by
  unfold say
  split
  · exact ⟨_, rfl⟩
  · exact ⟨l.log, rfl⟩

@[simp] theorem events_say (l : Line) (level : LogLevel) (message : String) :
    (l.say level message).events = l.events := by
  obtain ⟨log, hsay⟩ := say_eq l level message
  rw [hsay]

def started (l : Line) (script : DeviceScript) (options : LineOptions) : Line :=
  { l with replies := script.replies }.record (.opened l.port (some options))

def ready (l : Line) (settings : Settings) (script : DeviceScript) (options : LineOptions) : Line :=
  (l.started script options).noteOpened settings

theorem ready_eq (l : Line) (settings : Settings) (script : DeviceScript) (options : LineOptions) :
    ∃ log, l.ready settings script options = { l.started script options with log } := by
  unfold ready noteOpened
  split
  · exact say_eq ..
  · exact ⟨_, rfl⟩

theorem replies_ready (l : Line) (settings : Settings) (script : DeviceScript)
    (options : LineOptions) : (l.ready settings script options).replies = script.replies := by
  obtain ⟨log, hready⟩ := ready_eq l settings script options
  rw [hready]
  rfl

inductive Goes {α : Type} (settings : Settings) (script : DeviceScript)
    (body : Line → Except Failure α × Line) (l : Line) : Except Failure α × Line → Prop
  | refused {e : Failure} (h : settings.options = .error e) : Goes settings script body l (.error e, l)
  | unopened {o : LineOptions} {e : DeviceError} (ho : settings.options = .ok o)
      (h : script.openError = some e) :
      Goes settings script body l (.error (openFailure l.port e), l.started script o)
  | failed {o : LineOptions} {after : Line} {e : Failure} (ho : settings.options = .ok o)
      (hopen : script.openError = none) (hb : body (l.ready settings script o) = (.error e, after)) :
      Goes settings script body l (.error e, after.close)
  | finished {o : LineOptions} {after : Line} {a : α} (ho : settings.options = .ok o)
      (hopen : script.openError = none) (hb : body (l.ready settings script o) = (.ok a, after)) :
      Goes settings script body l ((after.flush script.flushError).1.map fun _ => a,
        (after.flush script.flushError).2.close)

theorem session_goes {α : Type} (settings : Settings) (script : DeviceScript)
    (body : Line → Except Failure α × Line) (l : Line) :
    Goes settings script body l (session settings script body l) := by
  unfold session
  cases ho : settings.options with
  | error e => exact .refused ho
  | ok o =>
    cases hopen : script.openError with
    | some e => exact .unopened ho hopen
    | none =>
      dsimp only
      rw [← started, ← ready]
      rcases hb : body (l.ready settings script o) with ⟨e | a, after⟩
      · exact .failed ho hopen hb
      · have hfinished := Goes.finished (l := l) ho hopen hb
        dsimp only
        rcases hf : after.flush script.flushError with ⟨e | u, t⟩
        · rw [hf] at hfinished
          exact hfinished
        · rw [hf] at hfinished
          exact hfinished

/-- A session that ends well ran its body to the end on the open line. -/
theorem session_eq_ok {α : Type} {settings : Settings} {script : DeviceScript}
    {body : Line → Except Failure α × Line} {l l' : Line} {a : α}
    (h : session settings script body l = (.ok a, l')) :
    ∃ o after, settings.options = .ok o ∧ body (l.ready settings script o) = (.ok a, after) ∧
      l' = (after.flush script.flushError).2.close := by
  have hgoes := session_goes settings script body l
  rw [h] at hgoes
  generalize hr : (Except.ok a, l') = r at hgoes
  cases hgoes with
  | @finished o after b ho hopen hb =>
    obtain ⟨hresult, rfl⟩ := Prod.mk.inj hr
    refine ⟨o, after, ho, ?_, rfl⟩
    obtain ⟨-, -, rfl⟩ := map_eq_ok.mp hresult.symm
    exact hb
  | _ => cases hr

end PenPlotter.Line
