import PenPlotter.Fault
import PenPlotter.Plot.Command
/-!
# Set-up of a plotter

The frames that set up the plotter's side of the line, and the profile that holds them with the settings of
the line. A frame is escape and a point, a letter with its parameters and a colon. The configuration frame
has the sum of three option bits with the weights 1, 4 and 8; byte strings are written as decimals between
semicolons.
-/
namespace PenPlotter
open Text

/-! ## Configuration -/

structure Config where
  hardwareHandshake : Bool := false
  /-- Monitor mode 1 if set, monitor mode 0 if cleared. -/
  monitorMode : Bool := false
  monitorEnabled : Bool := false
  deriving DecidableEq, Repr, Inhabited

namespace Config

/-- The sum of the weights of the options that are set. -/
def value (c : Config) : Nat :=
  1 * c.hardwareHandshake.toNat + 4 * c.monitorMode.toNat + 8 * c.monitorEnabled.toNat

def ofBits (n : Nat) : Config := ⟨n.testBit 0, n.testBit 2, n.testBit 3⟩

/-- The configuration of an integer, which must set no other bits. A negative integer is taken
modulo 16 if it is above -17. -/
def ofInt (i : Int) : Except Fault Config :=
  let n := (i % 16).toNat
  if i < -16 ∨ 15 < i ∨ n.testBit 1 then .error (.unknownBits i) else .ok (ofBits n)

def hardware : Config := { hardwareHandshake := true }
def mode : Config := { monitorMode := true }
def enabled : Config := { monitorEnabled := true }

def named : List (String × Config) :=
  [("HW_HANDSHAKE", hardware), ("MON_MODE_CTL", mode), ("MON_MODE_ENA", enabled)]

def ofName? (name : String) : Option Config :=
  if name = "NONE" then some {} else (named.find? (·.1 == name)).map (·.2)

protected def or (a b : Config) : Config :=
  ⟨a.1 || b.1, a.2 || b.2, a.3 || b.3⟩

protected def and (a b : Config) : Config :=
  ⟨a.1 && b.1, a.2 && b.2, a.3 && b.3⟩

protected def xor (a b : Config) : Config :=
  ⟨a.1 != b.1, a.2 != b.2, a.3 != b.3⟩

def invert (c : Config) : Config := ⟨!c.1, !c.2, !c.3⟩

def text (c : Config) : List Char := Nat.toDigits 10 c.value

def shown (c : Config) : List Char :=
  let names := named.filter (fun n => n.2.and c != {}) |>.map (·.1)
  let names := if names.isEmpty then ["NONE"] else names
  s!"<PlotterConfig.".toList ++ ("|".intercalate names).toList ++ ": ".toList ++ c.text ++ ['>']

end Config

/-! ## Instructions -/

inductive HandshakeMode where
  | one
  | two
  deriving DecidableEq, Repr

def HandshakeMode.letter : HandshakeMode → Char
  | .one => 'H'
  | .two => 'I'

inductive Handshake where
  /-- The host asks with a character before each block and waits for the answer. -/
  | enqAck (blockSize enqChar : Value) (answer : Bytes)
  /-- The plotter stops the host at a fill threshold and starts it again with trigger characters. -/
  | xonXoff (threshold : Value) (triggers : Bytes)

/-- Delay between characters, and the characters that stop the host. -/
structure Extended where
  delay : Value := .null
  triggers : Bytes := []

inductive Instruction where
  | config (config : Config)
  | handshake (mode : HandshakeMode) (handshake : Handshake)
  | extended (options : Extended)

def byteList (bytes : Bytes) : List Char :=
  [';'].intercalate (bytes.map fun b => Nat.toDigits 10 b.toNat)

/-- Two numbers of the enquiry handshake, or a threshold and an empty place. -/
def Handshake.text : Handshake → Except Fault (List Char)
  | .enqAck block enq answer => do
    let block ← block.text
    let enq ← enq.text
    return block ++ ';' :: enq ++ ';' :: byteList answer
  | .xonXoff threshold triggers => do
    return (← threshold.text) ++ ';' :: ';' :: byteList triggers

def Extended.text (e : Extended) : Except Fault (List Char) := do
  let delay ← match e.delay with
    | .null => pure []
    | v => v.text
  return delay ++ ';' :: byteList e.triggers

namespace Instruction

def text : Instruction → Except Fault (List Char)
  | .config c => .ok ('@' :: ';' :: c.text)
  | .handshake mode h => do return mode.letter :: (← h.text)
  | .extended e => do return 'N' :: (← e.text)

def wrap (s : List Char) : Except Fault Bytes := do
  return 0x1b :: 0x2e :: (← encodeAscii s) ++ [0x3a]

def frame (i : Instruction) : Except Fault Bytes := do wrap (← i.text)

end Instruction

/-! ## Profiles -/

structure Settings where
  baudrate : Value := .int 9600
  bytesize : Value := .int 8
  parity : Value := .str "none"
  stopbits : Value := .int 1
  flowControl : Value := .str "software"
  timeout : Value := .double (Double.ofRatio false 1 1)
  writeTimeout : Value := .null

structure Profile where
  id : String
  name : List Text.Code
  serial : Settings := {}
  config : Config := {}
  handshake : Option (HandshakeMode × Handshake) := none
  extended : Option Extended := none

/-- The frames to send before any command, in the order of the wire. -/
def Profile.setup (p : Profile) : List Instruction :=
  .config p.config :: (p.handshake.map fun h => .handshake h.1 h.2).toList ++
    (p.extended.map .extended).toList

end PenPlotter
