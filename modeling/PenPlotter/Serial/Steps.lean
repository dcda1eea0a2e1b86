import PenPlotter.Serial.Line
/-!
# Sessions on a line

`Line.session` opens a line for a body, flushes it if the body ends well and closes it in any case. A body
may be given as a list of steps: writes, whose failure may be caught, and errors raised by the body itself.
-/
namespace PenPlotter
open Text

namespace Line

def flush (error : Option DeviceError) (l : Line) : Except Failure Unit × Line :=
  let l := l.record .flushed
  match error with
  | some e => (.error (flushFailure l.port e), l)
  | none => (.ok (), l)

/-- Notes that the line is open. A speed that cannot be shown leaves the note out, and no more than that:
a log swallows what goes wrong in it. -/
def noteOpened (settings : Settings) (l : Line) : Line :=
  match settings.baudrate.text with
  | .ok baud => l.say .debug s!"Opened {l.port} at {String.ofList baud} baud"
  | .error _ => l

def close (l : Line) : Line :=
  (l.record .closed).say .debug s!"Closed {l.port}"

def session {α : Type} (settings : Settings) (script : DeviceScript)
    (body : Line → Except Failure α × Line) (l : Line) : Except Failure α × Line :=
  match settings.options with
  | .error e => (.error e, l)
  | .ok options =>
    let l := { l with replies := script.replies }.record (.opened l.port (some options))
    match script.openError with
    | some e => (.error (openFailure l.port e), l)
    | none => match body (l.noteOpened settings) with
      | (.error e, l) => (.error e, l.close)
      | (.ok a, l) =>
        match l.flush script.flushError with
        | (.error e, l) => (.error e, l.close)
        | (.ok (), l) => (.ok a, l.close)

/-- Runs a body on a line that passes the device's answers on as they are and has no settings. -/
def plainSession {α : Type} (replies : List Reply)
    (body : Line → Except Failure α × Line) (l : Line) : Except Failure α × Line :=
  let l := { l with replies }.record (.opened l.port none)
  let (result, l) := body l
  (result, l.record .closed)

end Line

/-! ## Scripted use -/

inductive LineStep where
  | write (data : Bytes) (catches : Bool)
  | raise (error : DeviceError)

namespace Line

/-- Carries out steps and notes after each write what it gave and how much the line has counted. -/
def run : List LineStep → Line → Except Failure Unit × Line
  | [], l => (.ok (), l)
  | .raise e :: _, l => (.error (.device e), l)
  | .write data catches :: rest, l =>
    match l.write data with
    | (.ok n, l) => run rest (l.record (.accepted (n.getD 0) l.total))
    | (.error e, l) =>
      let l := l.record (.refused e l.total)
      if catches then run rest l else (.error e, l)

end Line

end PenPlotter
