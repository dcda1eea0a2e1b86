import PenPlotter.Fault
import PenPlotter.Number.Notation
/-!
# Failures

Why a job, a profile or a delivery fails. Each failure carries the data that its message shows, and
`Failure.declared` tells the failures that the program announces from those that only pass through
it: errors of a device or a sink, and faults of single values.
-/
namespace PenPlotter
open Text

inductive FileProblem where
  | missing
  | isDirectory
  | notDirectory
  | nameTooLong
  deriving DecidableEq, Repr

def FileProblem.number : FileProblem → Nat
  | .missing => 2
  | .isDirectory => 21
  | .notDirectory => 20
  | .nameTooLong => 36

def FileProblem.text : FileProblem → String
  | .missing => "No such file or directory"
  | .isDirectory => "Is a directory"
  | .notDirectory => "Not a directory"
  | .nameTooLong => "File name too long"

structure FileError where
  problem : FileProblem
  path : String
  deriving DecidableEq, Repr

def FileError.message (e : FileError) : String :=
  s!"[Errno {e.problem.number}] {e.problem.text}: " ++ String.ofList (quoted e.path.toList)

/-- The errors that devices and sinks raise. A timeout of the line is also an error of the line, and
both are errors of the system. -/
inductive DeviceErrorKind where
  | line
  | lineTimeout
  | system
  | value
  | runtime
  | send
  deriving DecidableEq, Repr

structure DeviceError where
  kind : DeviceErrorKind
  message : String := ""
  deriving DecidableEq, Repr

def DeviceError.isSystem (e : DeviceError) : Bool :=
  match e.kind with
  | .line | .lineTimeout | .system => true
  | .value | .runtime | .send => false

inductive Stage where
  | characters
  | tokens
  | events
  | nodes
  | values
  deriving DecidableEq, Repr

def Stage.text : Stage → String
  | .characters => "a character that no document may hold"
  | .tokens => "text that is no token"
  | .events => "a token that has no place here"
  | .nodes => "a node that cannot be composed"
  | .values => "a node that has no value"

structure Violation where
  path : List String
  message : List Char
  deriving DecidableEq, Repr

inductive DocumentRole where
  | job
  | profile
  deriving DecidableEq, Repr

inductive DocumentFlaw where
  | unreadable (error : FileError)
  | malformed (stage : Stage)
  | duplicateKey (detail : List Char)
  | notAMapping
  | invalid (violation : Violation)
  | notFinite (place : String) (shown : List Char)
  deriving DecidableEq, Repr

structure DocumentError where
  role : DocumentRole
  source : String
  flaw : DocumentFlaw
  deriving DecidableEq, Repr

def DocumentError.message (e : DocumentError) : String :=
  match e.flaw with
  | .unreadable error => s!"Could not read {e.source}: " ++ error.message
  | .malformed stage => s!"Invalid YAML in {e.source}: {stage.text}"
  | .duplicateKey detail => s!"Invalid YAML in {e.source}: " ++ String.ofList detail
  | .notAMapping => s!"{e.source} must contain a mapping at root"
  | .invalid v =>
    let place := if v.path.isEmpty then "" else " (" ++ ".".intercalate v.path ++ ")"
    s!"Schema validation failed for {e.source}" ++ place ++ ": " ++ String.ofList v.message
  | .notFinite place shown =>
    s!"Non-finite number in {e.source} ({place}): " ++ String.ofList shown

inductive TransportError where
  | unsupportedSetting (shown : List Char)
  | unsupportedFlow (text : List Char)
  | cannotOpen (port : String) (cause : DeviceError)
  | writeTimedOut (port : String) (count : Nat) (cause : DeviceError)
  | writeFailed (port : String) (cause : DeviceError)
  | flushTimedOut (port : String) (cause : DeviceError)
  | flushFailed (port : String) (cause : DeviceError)
  deriving DecidableEq, Repr

inductive TransportErrorKind where
  | connect
  | send
  | timeout
  deriving DecidableEq, Repr

namespace TransportError

def kind : TransportError → TransportErrorKind
  | .unsupportedSetting _ | .unsupportedFlow _ | .cannotOpen .. => .connect
  | .writeTimedOut .. | .flushTimedOut .. => .timeout
  | .writeFailed .. | .flushFailed .. => .send

def message : TransportError → String
  | .unsupportedSetting s => "Unsupported serial setting: " ++ String.ofList s
  | .unsupportedFlow s => "Unsupported flow control '" ++ String.ofList s ++ "'"
  | .cannotOpen port e => s!"Could not open serial port {port}: {e.message}"
  | .writeTimedOut port n _ => s!"Write to {port} timed out after {n} bytes"
  | .writeFailed port e => s!"Serial write to {port} failed: {e.message}"
  | .flushTimedOut port _ => s!"Flushing {port} timed out"
  | .flushFailed port e => s!"Flushing {port} failed: {e.message}"

end TransportError

inductive Failure where
  | fault (fault : Fault)
  | device (error : DeviceError)
  /-- A sink took nothing while this many bytes were waiting. -/
  | stalled (pending : Nat)
  | transport (error : TransportError)
  | document (error : DocumentError)
  | unknownProfile (wanted : String) (known : List String)
  | file (error : FileError)
  | noHome
  deriving DecidableEq, Repr

namespace Failure

def message : Failure → String
  | .fault f => f.message
  | .device e => e.message
  | .stalled n => s!"Sink accepted no bytes with {n} bytes pending"
  | .transport e => e.message
  | .document e => e.message
  | .unknownProfile wanted known =>
    let known := if known.isEmpty then "<none>" else ", ".intercalate known
    s!"Unknown profile '{wanted}'. Available: {known}"
  | .file e => e.message
  | .noHome => "Could not determine home directory."

/-- Whether the program announces a failure of this kind. -/
def declared : Failure → Bool
  | .transport _ | .document _ | .unknownProfile .. => true
  | .device e => e.kind == .send
  | .fault _ | .stalled _ | .file _ | .noHome => false

end Failure

end PenPlotter
