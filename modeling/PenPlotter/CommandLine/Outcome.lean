import PenPlotter.CommandLine.Request
import PenPlotter.Service.Send
import PenPlotter.Text.Code
import PenPlotter.Text.Hex
/-!
# Outcomes

What a request prints, writes and sends, and how it ends. Failures that the program announces end
with a line of text; any other failure is handed on, with all that was printed before it.

Text for people is printed without a terminal's control sequences: an escape character, an opening bracket,
parameters and a letter.
-/
namespace PenPlotter.Text

/-! ## Control sequences -/

def isSequenceParameter : Code → Bool
  | .char c => c == ';' || c == '?' || c.isDigit
  | .half _ => false

def sequenceLength? : List Code → Option Nat
  | .char '\x1b' :: .char '[' :: rest =>
    let parameters := rest.takeWhile isSequenceParameter
    match rest.drop parameters.length with
    | .char c :: _ => if c.isAlpha then some (parameters.length + 3) else none
    | _ => none
  | _ => none

/-- A text without its first `skip` code points and without control sequences after them. -/
def dropSequencesAfter : (skip : Nat) → List Code → List Code
  | _, [] => []
  | skip + 1, _ :: cs => dropSequencesAfter skip cs
  | 0, c :: cs =>
    match sequenceLength? (c :: cs) with
    | some n => dropSequencesAfter (n - 1) cs
    | none => c :: dropSequencesAfter 0 cs

def dropSequences (s : List Code) : List Code := dropSequencesAfter 0 s

end PenPlotter.Text

namespace PenPlotter.CommandLine
open Text

/-- How the standard output writes the code points of a text, and the fault of one that it cannot write.
The environment decides on both; ASCII characters are written as themselves in any case. -/
structure Output where
  bytes? : Code → Option Bytes
  fault : List Code → Fault
  ascii {c : Char} (h : c.toNat < 128) : bytes? (.char c) = some (String.utf8EncodeChar c)

namespace Output

/-- UTF-8, which has all characters and nothing else. -/
def utf8 : Output where
  bytes?
    | .char c => some (String.utf8EncodeChar c)
    | .half _ => none
  fault := .notUtf8
  ascii _ := rfl

def write (o : Output) (s : List Code) : Except Fault Bytes :=
  match s.mapM o.bytes? with
  | some parts => .ok parts.flatten
  | none => .error (o.fault s)

end Output

structure Desk where
  world : World
  output : Output := .utf8
  line : Line := { port := "" }
  out : Bytes := []
  err : List Char := []

/-- An action at a desk. What it did before a failure stays done. -/
abbrev Action := ExceptT Failure (StateM Desk)

namespace Desk

def tell (s : List Char) (d : Desk) : Desk :=
  { d with err := d.err ++ escapeHalves (dropSequences (codes s)) ++ ['\n'] }

end Desk

/-- What loading the profiles gave: warnings, and the catalog unless it failed. -/
abbrev Loaded := List String × Except Failure Catalog

/-- Prints a line on the standard output, all of it or nothing. -/
def printCodes (s : List Code) : Action Unit := do
  let d ← get
  match d.output.write (dropSequences s ++ codes ['\n']) with
  | .ok line => set { d with out := d.out ++ line }
  | .error f => throw (.fault f)

def print (s : String) : Action Unit := printCodes (codes s.toList)

def tell (s : String) : Action Unit := modify (Desk.tell s.toList)

/-- Shows each warning when it comes up, and all of them again once loading has succeeded. -/
def catalog (loaded : Loaded) : Action Catalog := do
  loaded.1.forM tell
  let c ← ExceptT.mk (pure loaded.2)
  loaded.1.forM fun w => tell s!"Warning: {w}"
  return c

def settingsLine (s : Settings) : Except Fault String := do
  let baudrate ← s.baudrate.text
  let bytesize ← s.bytesize.text
  let parity ← s.parity.text
  let stopbits ← s.stopbits.text
  let flow ← s.flowControl.text
  return s!"  serial: {String.ofList baudrate} baud, {String.ofList bytesize} data bits, " ++
    s!"parity {String.ofList parity}, {String.ofList stopbits} stop bits, " ++
    s!"flow control {String.ofList flow}"

def printProfile (p : Profile) : Action Unit := do
  printCodes (codes s!"{p.id}: ".toList ++ p.name)
  print (← ExceptT.mk (pure ((settingsLine p.serial).mapError .fault)))

/-- Lists the profiles; that there are none counts as a failure. -/
def profiles (loaded : Loaded) : Action Nat := do
  let c ← catalog loaded
  match c.sorted with
  | [] =>
    print "No profiles loaded"
    return 1
  | ps =>
    ps.forM printProfile
    return 0

def writeFile (p : PathName) (data : Bytes) : Action Unit := do
  let d ← get
  match d.world.write p data with
  | .error problem => throw (.file ⟨problem, p.text⟩)
  | .ok world =>
    set { d with world }
    tell s!"Wrote {data.length} bytes to {p.text}"

def encode (loaded : Loaded) (job : JobChoice) (output : Option PathName) (hex : Bool) :
    Action Nat := do
  let c ← catalog loaded
  let world := (← get).world
  let commands ← ExceptT.mk (pure (Job.load world job.path))
  let data ← ExceptT.mk (pure (c.render (.program (commands.map .command)) job.profile job.setup))
  let data := if hex then Utf8.encode (Hex.encode data ++ ['\n']) else data
  match output with
  | none => modify fun d => { d with out := d.out ++ data }
  | some p => writeFile p data
  return 0

def send (c : Catalog) (transport : Transport) (program : Item) (job : JobChoice)
    (port : String) : Action Sent := do
  let (sent, line) := c.send transport program job.profile job.setup { port }
  modify fun d => { d with line }
  ExceptT.mk (pure sent)

def report (sent : Sent) : String :=
  s!"Sent {sent.frames} frames ({sent.bytes} bytes) to {sent.port} via {sent.profile.id}"

def plot (loaded : Loaded) (transport : Transport) (job : JobChoice) (port : String) :
    Action Nat := do
  let c ← catalog loaded
  let world := (← get).world
  let commands ← ExceptT.mk (pure (Job.load world job.path))
  let sent ← send c transport (.program (commands.map .command)) job port
  print (report sent)
  return 0

def usage : String :=
  "\n".intercalate [
    "Usage: penplotter profiles",
    "       penplotter encode [--profile ID] [--no-setup] [--output FILE] [--hex] JOB",
    "       penplotter plot --port PORT [--profile ID] [--no-setup] JOB"]

structure Outcome where
  code : Nat
  escaped : Option Failure := none
  desk : Desk

namespace Request

def action (loaded : Loaded) (transport : Transport) : Request → Action Nat
  | .help => do
    print usage
    return 0
  | .profiles => CommandLine.profiles loaded
  | .encode job output hex => CommandLine.encode loaded job output hex
  | .plot job port => CommandLine.plot loaded transport job port

end Request

def Outcome.of (a : Action Nat) (d : Desk) : Outcome :=
  match a.run.run d with
  | (.ok code, d) => ⟨code, none, d⟩
  | (.error e, d) =>
    if e.declared then ⟨1, none, d.tell ("Error: ".toList ++ e.message.toList)⟩
    else ⟨1, some e, d⟩

/-- What the program does with its arguments. Arguments that ask for nothing known are answered with
the usage. -/
def outcome (loaded : Loaded) (transport : Transport) (arguments : List String) (world : World)
    (output : Output := .utf8) : Outcome :=
  let d : Desk := { world, output }
  match Request.ofArguments? arguments with
  | none => ⟨2, none, d.tell usage.toList⟩
  | some r => Outcome.of (r.action loaded transport) d

end PenPlotter.CommandLine
