import PenPlotter.Plot.Delivery
import PenPlotter.Serial.Options
/-!
# Serial lines

A plotter's line, seen from the host: it is opened with options, written to, flushed and closed. A
line is described by a script of what the device answers, and keeps a record of what was done to it.
-/
namespace PenPlotter
open Text

/-- What a device answers: to opening, to the writes in turn, and to flushing. -/
structure DeviceScript where
  openError : Option DeviceError := none
  replies : List Reply := []
  flushError : Option DeviceError := none

/-- What happened on a line. A body may note the outcome of its own writes. -/
inductive LineEvent where
  | opened (port : String) (options : Option LineOptions)
  | wrote (data : Bytes) (reply : Reply)
  | flushed
  | closed
  | accepted (count : Int) (total : Nat)
  | refused (failure : Failure) (total : Nat)

inductive LogLevel where
  | debug
  | info
  | warning
  deriving DecidableEq, Repr

structure LogLine where
  level : LogLevel
  message : String
  deriving DecidableEq, Repr

/-- A line in use: the replies still to come, the bytes of all successful writes, and the record. Notes
are taken only where a log is kept. -/
structure Line where
  port : String
  logged : Bool := false
  replies : List Reply := []
  total : Nat := 0
  events : List LineEvent := []
  log : List LogLine := []

namespace Line

def record (l : Line) (e : LineEvent) : Line := { l with events := l.events ++ [e] }

def say (l : Line) (level : LogLevel) (message : String) : Line :=
  if l.logged then { l with log := l.log ++ [⟨level, message⟩] } else l

def transmit (data : Bytes) (l : Line) : Reply × Line :=
  let (reply, rest) := Reply.next data l.replies
  (reply, { l with replies := rest }.record (.wrote data reply))

def bareWrite : Sink Line := fun data l =>
  let (reply, l) := l.transmit data
  (reply.result, l)

def writeFailure (port : String) (total : Nat) (e : DeviceError) : Failure :=
  match e.kind with
  | .lineTimeout => .transport (.writeTimedOut port total e)
  | .line | .system => .transport (.writeFailed port e)
  | .value | .runtime | .send => .device e

/-- The line as a sink that counts what its writes offered, and answers with a count. -/
def write : Sink Line := fun data l =>
  let (reply, l) := l.transmit data
  match reply with
  | .error e => (.error (writeFailure l.port l.total e), l)
  | .count n => (.ok (some n), { l with total := l.total + data.length })
  | .all => (.ok (some data.length), { l with total := l.total + data.length })

def flushFailure (port : String) (e : DeviceError) : Failure :=
  match e.kind with
  | .lineTimeout => .transport (.flushTimedOut port e)
  | .line | .system => .transport (.flushFailed port e)
  | .value | .runtime | .send => .device e

def openFailure (port : String) (e : DeviceError) : Failure :=
  match e.kind with
  | .line | .lineTimeout | .system | .value => .transport (.cannotOpen port e)
  | .runtime | .send => .device e

end Line

end PenPlotter
