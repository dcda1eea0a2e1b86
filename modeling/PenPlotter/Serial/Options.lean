import PenPlotter.Failure
import PenPlotter.Plot.Setup
import PenPlotter.Value.Text
/-!
# Line options

The options with which a serial line is opened. Parity, stop bits and flow control must be among the
ones that a line knows; the other settings are handed on as they are.
-/
namespace PenPlotter
open Text

inductive Parity where
  | none
  | odd
  | even
  | mark
  | space
  deriving DecidableEq, Repr

def Parity.letter : Parity → Char
  | .none => 'N'
  | .odd => 'O'
  | .even => 'E'
  | .mark => 'M'
  | .space => 'S'

def Parity.named : List (String × Parity) :=
  [("none", .none), ("odd", .odd), ("even", .even), ("mark", .mark), ("space", .space)]

inductive StopBits where
  | one
  | onePointFive
  | two
  deriving DecidableEq, Repr

def StopBits.value : StopBits → Value
  | .one => .int 1
  | .onePointFive => .double (Double.ofRatio false 3 2)
  | .two => .int 2

inductive FlowControl where
  | none
  | software
  | hardware
  deriving DecidableEq, Repr

def FlowControl.named : List (String × FlowControl) :=
  [("none", .none), ("software", .software), ("hardware", .hardware)]

structure LineOptions where
  baudrate : Value
  bytesize : Value
  parity : Parity
  stopBits : StopBits
  flow : FlowControl
  timeout : Value
  writeTimeout : Value

/-- The choice that a value names, if the value can be looked up at all. -/
def Value.choose {α : Type} (v : Value) (choices : List (Value × α)) : Except Fault (Option α) :=
  match v.keyFault? with
  | some f => .error f
  | none => .ok ((choices.find? fun c => v.same c.1).map (·.2))

def byName {α : Type} (choices : List (String × α)) : List (Value × α) :=
  choices.map fun c => (.str c.1, c.2)

def Settings.required {α : Type} (v : Value) (choices : List (Value × α)) : Except Failure α :=
  match v.choose choices with
  | .error f => .error (.fault f)
  | .ok (some x) => .ok x
  | .ok none => match v.shown with
    | .ok s => .error (.transport (.unsupportedSetting s))
    | .error f => .error (.fault f)

def Settings.options (s : Settings) : Except Failure LineOptions := do
  let parity ← required s.parity (byName Parity.named)
  let stopBits ← required s.stopbits
    ([StopBits.one, .onePointFive, .two].map fun b => (b.value, b))
  let flow ← match s.flowControl.choose (byName FlowControl.named) with
    | .error f => .error (.fault f)
    | .ok (some x) => .ok x
    | .ok none => match s.flowControl.text with
      | .ok t => .error (.transport (.unsupportedFlow t))
      | .error f => .error (.fault f)
  return { baudrate := s.baudrate, bytesize := s.bytesize, parity, stopBits, flow,
           timeout := s.timeout, writeTimeout := s.writeTimeout }

end PenPlotter
