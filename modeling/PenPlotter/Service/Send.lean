import PenPlotter.Job.Load
import PenPlotter.Plot.Item
import PenPlotter.Profile.Catalog
import PenPlotter.Serial.Steps
/-!
# Sending programs

A program is written behind the set-up frames of a profile: to a sink, into bytes, or over a line that
is opened with the profile's settings.
-/
namespace PenPlotter
open Text

def Profile.frames (p : Profile) (setup : Bool) (program : Item) : List (Except Fault Bytes) :=
  (if setup then p.setup.map Instruction.frame else []) ++ program.commandFrames

structure Counted (σ : Type) where
  inner : σ
  frames : Nat := 0
  bytes : Nat := 0

/-- A sink that counts the writes which do not fail, and what they were offered. -/
def counting {σ : Type} (write : Sink σ) : Sink (Counted σ) := fun data s =>
  match write data s.inner with
  | (.ok n, inner) => (.ok n, ⟨inner, s.frames + 1, s.bytes + data.length⟩)
  | (.error e, inner) => (.error e, { s with inner })

structure Sent where
  profile : Profile
  port : String
  frames : Nat
  bytes : Nat

inductive Transport where
  | serial (script : DeviceScript)
  | plain (replies : List Reply)

def Transport.session {α : Type} (t : Transport) (settings : Settings)
    (body : Sink Line → Line → Except Failure α × Line) (l : Line) : Except Failure α × Line :=
  match t with
  | .serial script => Line.session settings script (body Line.write) l
  | .plain replies => Line.plainSession replies (body Line.bareWrite) l

namespace Catalog

def writeJob {σ : Type} (c : Catalog) (write : Sink σ) (program : Item) (id : Option String)
    (setup : Bool) (s : σ) : Except Failure Profile × σ :=
  match c.resolve id with
  | .error e => (.error e, s)
  | .ok p => match deliver write (p.frames setup program) s with
    | (.error e, s) => (.error e, s)
    | (.ok (), s) => (.ok p, s)

def render (c : Catalog) (program : Item) (id : Option String) (setup : Bool) :
    Except Failure Bytes := do
  let p ← c.resolve id
  let frames ← ((p.frames setup program).mapM fun f => f).mapError .fault
  return frames.flatten

/-- The bytes of a job file for a profile. The file is read before the profile is looked up. -/
def renderFile (c : Catalog) (w : World) (path : PathName) (id : Option String) (setup : Bool) :
    Except Failure Bytes := do
  let commands ← Job.load w path
  c.render (.program (commands.map .command)) id setup

def send (c : Catalog) (transport : Transport) (program : Item) (id : Option String)
    (setup : Bool) (l : Line) : Except Failure Sent × Line :=
  match c.resolve id, program.size with
  | .error e, _ => (.error e, l)
  | .ok _, .error f => (.error (.fault f), l)
  | .ok p, .ok size =>
    let l := l.say .info s!"Sending {size} commands to {l.port} using profile '{p.id}'"
    let body (write : Sink Line) (l : Line) : Except Failure (Nat × Nat) × Line :=
      let (result, s) := c.writeJob (counting write) program (some p.id) setup { inner := l }
      (result.map fun _ => (s.frames, s.bytes), s.inner)
    match transport.session p.serial body l with
    | (.error e, l) => (.error e, l)
    | (.ok (frames, bytes), l) =>
      (.ok ⟨p, l.port, frames, bytes⟩,
        l.say .debug s!"Sent {frames} frames, {bytes} bytes to {l.port}")

end Catalog

end PenPlotter
