import PenPlotter.Plot.Setup
import PenPlotter.Schema.Basic
import PenPlotter.Schema.Violation
import PenPlotter.Value.Number
/-!
# Profiles from documents

The profile of a document that keeps the schema. Numbers are brought to the form in which they are
used; where the schema allows a number that has no such form, building fails with its fault.
-/
namespace PenPlotter.Profile
open Text

/-! ## The schema -/

def byteSchema : Schema := [.kinds [.integer], .minimum 0, .maximum 255]

def byteStringSchema : Schema := [.kinds [.array], .items byteSchema]

/-- Identifiers: lower-case letters, digits and underscores, and after the first character also
points and hyphens. -/
def idForm : NameForm where
  text := "^[a-z0-9_][a-z0-9_.-]*$"
  first c := c.isLower || c.isDigit || c == '_'
  later c := c.isLower || c.isDigit || c == '_' || c == '.' || c == '-'

def names (xs : List String) : Rule := .enum (xs.map .str)

def serialSchema : Schema :=
  [.kinds [.object],
    .closed ["baudrate", "bytesize", "parity", "stopbits", "flow_control", "timeout_s",
      "write_timeout_s"],
    .properties [
      ("baudrate", [.kinds [.integer], .minimum 50]),
      ("bytesize", [.enum [.int 5, .int 6, .int 7, .int 8]]),
      ("parity", [names ["none", "odd", "even", "mark", "space"]]),
      ("stopbits", [.enum [.int 1, .double (Double.ofRatio false 3 2), .int 2]]),
      ("flow_control", [names ["none", "software", "hardware"]]),
      ("timeout_s", [.kinds [.number], .above 0]),
      ("write_timeout_s", [.kinds [.number, .null], .above 0])]]

def modeSchema : Schema := [.enum [.int 1, .int 2]]

def xonXoffSchema : Schema :=
  [.kinds [.object], .closed ["mode", "type", "xoff_threshold", "xon_trigger_chars"],
    .required ["mode", "type", "xoff_threshold"],
    .properties [("mode", modeSchema), ("type", [.const (.str "xon_xoff")]),
      ("xoff_threshold", byteSchema), ("xon_trigger_chars", byteStringSchema)]]

def enqAckSchema : Schema :=
  [.kinds [.object], .closed ["mode", "type", "block_size", "enq_char", "ack_string"],
    .required ["mode", "type", "block_size", "enq_char"],
    .properties [("mode", modeSchema), ("type", [.const (.str "enq_ack")]),
      ("block_size", byteSchema), ("enq_char", byteSchema), ("ack_string", byteStringSchema)]]

def extendedSchema : Schema :=
  [.kinds [.object], .closed ["interchar_delay", "xoff_trigger_chars"],
    .properties [
      ("interchar_delay", [.kinds [.integer, .null], .minimum 0, .maximum 65535]),
      ("xoff_trigger_chars", byteStringSchema)]]

def setupSchema : Schema :=
  [.kinds [.object], .closed ["plotter_config", "handshake", "ext_handshake"],
    .properties [
      ("plotter_config", [.kinds [.array], .unique,
        .items [names ["hw_handshake", "mon_mode_ctl", "mon_mode_ena"]]]),
      ("handshake", [.anyOf [xonXoffSchema, enqAckSchema]]),
      ("ext_handshake", extendedSchema)]]

def schema : Schema :=
  [.kinds [.object], .closed ["id", "name", "serial", "setup"], .required ["id", "name", "serial"],
    .properties [
      ("id", [.kinds [.string], .form idForm]),
      ("name", [.kinds [.string], .minLength 1]),
      ("serial", serialSchema),
      ("setup", setupSchema)]]

/-! ## Profiles -/

abbrev Entries := List (Value × Value)

/-- The entries of a mapping, and none of anything else. -/
def entriesOf : Value → Entries
  | .map es => Value.entries es
  | _ => []

def field (es : Entries) (name : String) (absent : Value) : Value :=
  (Value.lookup? name es).getD absent

def textOf : Value → String
  | .str s => s
  | _ => ""

def codesOf : Value → List Code
  | .str s => codes s.toList
  | .codes s => s
  | _ => []

def secondsOrNone : Value → Except Fault Value
  | .null => .ok .null
  | v => do return .double (← v.toDouble)

def buildSerial (es : Entries) : Except Fault Settings := do
  let d : Settings := {}
  return { baudrate := .int (← (field es "baudrate" d.baudrate).toInt)
           bytesize := .int (← (field es "bytesize" d.bytesize).toInt)
           parity := field es "parity" d.parity
           stopbits := field es "stopbits" d.stopbits
           flowControl := field es "flow_control" d.flowControl
           timeout := .double (← (field es "timeout_s" d.timeout).toDouble)
           writeTimeout := ← secondsOrNone (field es "write_timeout_s" d.writeTimeout) }

def configNames : List (String × Config) :=
  [("hw_handshake", Config.hardware), ("mon_mode_ctl", Config.mode),
    ("mon_mode_ena", Config.enabled)]

def buildConfig (names : List Value) : Config :=
  names.foldl (fun c v => match configNames.find? (·.1 == textOf v) with
    | some option => c.or option.2
    | none => c) {}

def buildMode (v : Value) : HandshakeMode := if v.same (.int 1) then .one else .two

def byteString (es : Entries) (name : String) : Except Fault Bytes :=
  (field es name (.list [])).toBytes

def number (es : Entries) (name : String) : Except Fault Value := do
  return .int (← (field es name .null).toInt)

def buildHandshake (es : Entries) : Except Fault (HandshakeMode × Handshake) := do
  let mode := buildMode (field es "mode" .null)
  if textOf (field es "type" .null) = "enq_ack" then
    return (mode, .enqAck (← number es "block_size") (← number es "enq_char")
      (← byteString es "ack_string"))
  return (mode, .xonXoff (← number es "xoff_threshold") (← byteString es "xon_trigger_chars"))

def buildExtended (es : Entries) : Except Fault Extended := do
  let delay ← match field es "interchar_delay" .null with
    | .null => pure .null
    | v => do pure (.int (← v.toInt))
  return { delay, triggers := ← byteString es "xoff_trigger_chars" }

def ofDocument (es : Entries) : Except Fault Profile := do
  let setup := entriesOf (field es "setup" (.map []))
  let serial ← buildSerial (entriesOf (field es "serial" .null))
  let config := buildConfig ((field setup "plotter_config" (.list [])).walk.toOption.getD [])
  let handshake ← (Value.lookup? "handshake" setup).mapM fun v => buildHandshake (entriesOf v)
  let extended ← (Value.lookup? "ext_handshake" setup).mapM fun v => buildExtended (entriesOf v)
  return { id := textOf (field es "id" .null), name := codesOf (field es "name" .null),
           serial, config, handshake, extended }

def build (source : String) (doc : Value) : Except Failure Profile := do
  Schema.check schema .profile source doc
  (ofDocument (entriesOf doc)).mapError .fault

end PenPlotter.Profile
