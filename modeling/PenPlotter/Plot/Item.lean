import PenPlotter.Plot.Setup
import PenPlotter.Value.Number
/-!
# Items

Everything that a caller may offer where a command, an instruction, a chain or a program is wanted:
the parts of the model, and plain values that are none of them. `Item.commandFrame`,
`Item.instructionFrame`, `Item.chainFrame` and `Item.encode` render what can be rendered and name
what cannot.
-/
namespace PenPlotter
open Text

inductive Item where
  | plain (v : Value)
  | point (p : Point)
  | chain (points : List Point)
  | command (c : Command)
  | instruction (i : Instruction)
  | handshake (h : Handshake)
  | settings (s : Settings)
  | profile (p : Profile)
  | program (items : List Item)
  /-- A chain that holds something other than points. -/
  | looseChain (items : List Item)
  /-- A plot command that holds something other than points. -/
  | loosePlot (items : List Item)
  /-- A handshake instruction without a handshake. -/
  | looseHandshake (mode : HandshakeMode) (item : Item)
  /-- A profile whose set-up holds something other than its instructions. -/
  | looseProfile (profile : Profile) (handshake extended : Option Item)

namespace Item

def kindName : Item → String
  | .plain (.date _) => "date"
  | .plain (.moment _) => "datetime"
  | .plain v => v.kindName
  | .point _ => "Coordinate"
  | .chain _ | .looseChain _ => "CoordinateChain"
  | .command .defaults => "DefaultSettings"
  | .command .initializePlotter => "InitializePlotter"
  | .command (.selectPen _) => "SelectPen"
  | .command (.velocity _) => "VelocitySelect"
  | .command .penUp => "PenUp"
  | .command .penDown => "PenDown"
  | .command (.plot _) | .loosePlot _ => "PlotAbsolute"
  | .instruction (.config _) => "SetPlotterConfig"
  | .instruction (.handshake ..) | .looseHandshake .. => "SetHandshakeMode"
  | .instruction (.extended _) => "SetExtHandshakeOptions"
  | .handshake (.enqAck ..) => "EnqAck"
  | .handshake (.xonXoff ..) => "XonXoff"
  | .settings _ => "SerialSettings"
  | .profile _ | .looseProfile .. => "PlotterProfile"
  | .program _ => "HpglProgram"

def points? : List Item → Option (List Point)
  | [] => some []
  | .point p :: rest => (points? rest).map (p :: ·)
  | _ => none

def ofChain (items : List Item) : Item :=
  match points? items with
  | some ps => .chain ps
  | none => .looseChain items

def ofPlot (items : List Item) : Item :=
  match points? items with
  | some ps => .command (.plot ps)
  | none => .loosePlot items

def ofHandshake (mode : HandshakeMode) : Item → Item
  | .handshake h => .instruction (.handshake mode h)
  | item => .looseHandshake mode item

def present? : Option Item → Option Item
  | some (.plain .null) => none
  | part => part

def ofProfile (p : Profile) (asking options : Option Item) : Item :=
  match present? asking, present? options with
  | none, none => .profile p
  | some (.instruction (.handshake mode h)), none => .profile { p with handshake := some (mode, h) }
  | none, some (.instruction (.extended e)) => .profile { p with extended := some e }
  | some (.instruction (.handshake mode h)), some (.instruction (.extended e)) =>
    .profile { p with handshake := some (mode, h), extended := some e }
  | asking, options => .looseProfile p asking options

def setup : Item → List Item
  | .profile p => p.setup.map .instruction
  | .looseProfile p asking options =>
    .instruction (.config p.config) :: asking.toList ++ options.toList
  | _ => []

def chainOfPairs (v : Value) : Except Fault Item := do
  let pairs ← (← v.walk).mapM Value.pair
  return .chain (pairs.map fun p => ⟨p.1, p.2⟩)

/-- The items of what can be walked through: a chain's points, a program's commands, a value's
parts. -/
def walk : Item → Except Fault (List Item)
  | .chain ps => .ok (ps.map .point)
  | .looseChain items | .program items => .ok items
  | .plain v => do return (← v.walk).map .plain
  | item => .error (.notIterable item.kindName)

def size (item : Item) : Except Fault Nat :=
  match item.walk with
  | .ok items => .ok items.length
  | .error _ => .error (.noLength item.kindName)

def plotOf : Item → Except Fault Item
  | .point p => .ok (.command (.plot [p]))
  | .chain ps => .ok (.command (.plot ps))
  | item => do return ofPlot (← item.walk)

def record (name : String) (fields : List (String × List Char)) : List Char :=
  name.toList ++ '(' ::
    Value.commaList (fields.map fun f => f.1.toList ++ '=' :: f.2) ++ [')']

def tupleShown (parts : List (List Char)) : List Char :=
  '(' :: Value.commaList parts ++ (if parts.length = 1 then [','] else []) ++ [')']

def pointShown (p : Point) : Except Fault (List Char) := do
  return record "Coordinate" [("x", ← p.x.shown), ("y", ← p.y.shown)]

def chainShown (points : List (List Char)) : List Char :=
  record "CoordinateChain" [("points", tupleShown points)]

def handshakeShown : Handshake → Except Fault (List Char)
  | .enqAck block enq answer => do
    return record "EnqAck" [("block_size", ← block.shown), ("enq_char", ← enq.shown),
      ("ack_string", quotedBytes answer)]
  | .xonXoff threshold triggers => do
    return record "XonXoff" [("xoff_threshold", ← threshold.shown),
      ("xon_trigger_chars", quotedBytes triggers)]

def modeShown : HandshakeMode → List Char
  | .one => "<HandshakeMode.MODE1: 'H'>".toList
  | .two => "<HandshakeMode.MODE2: 'I'>".toList

def extendedShown (e : Extended) : Except Fault (List Char) := do
  return record "SetExtHandshakeOptions" [("interchar_delay", ← e.delay.shown),
    ("xoff_trigger_chars", quotedBytes e.triggers)]

def settingsShown (s : Settings) : Except Fault (List Char) := do
  return record "SerialSettings" [("baudrate", ← s.baudrate.shown),
    ("bytesize", ← s.bytesize.shown), ("parity", ← s.parity.shown),
    ("stopbits", ← s.stopbits.shown), ("flow_control", ← s.flowControl.shown),
    ("timeout_s", ← s.timeout.shown), ("write_timeout_s", ← s.writeTimeout.shown)]

def handshakeModeShown (mode : HandshakeMode) (handshake : List Char) : List Char :=
  record "SetHandshakeMode" [("mode", modeShown mode), ("handshake", handshake)]

def profileShownWith (p : Profile) (handshake extended : Except Fault (List Char)) :
    Except Fault (List Char) := do
  return record "PlotterProfile" [("id", quoted p.id.toList), ("name", quotedCodes p.name),
    ("serial", ← settingsShown p.serial), ("plotter_config", p.config.shown),
    ("handshake", ← handshake), ("ext_handshake", ← extended)]

def profileShown (p : Profile) : Except Fault (List Char) :=
  profileShownWith p
    (match p.handshake with
      | some (mode, h) => do return handshakeModeShown mode (← handshakeShown h)
      | none => .ok "None".toList)
    (match p.extended with
      | some e => extendedShown e
      | none => .ok "None".toList)

mutual
def shown : Item → Except Fault (List Char)
  | .plain v => v.shown
  | .point p => pointShown p
  | .chain ps => do return chainShown (← ps.mapM pointShown)
  | .looseChain items => do return chainShown (← shownAll items)
  | .command c => match c with
    | .selectPen pen => do return record "SelectPen" [("pen", ← pen.shown)]
    | .velocity v => do return record "VelocitySelect" [("velocity", ← v.shown)]
    | .plot ps => do
      return record "PlotAbsolute" [("chain", chainShown (← ps.mapM pointShown))]
    | c => .ok (record (kindName (.command c)) [])
  | .loosePlot items => do
    return record "PlotAbsolute" [("chain", chainShown (← shownAll items))]
  | .instruction i => match i with
    | .config c => .ok (record "SetPlotterConfig" [("config", c.shown)])
    | .handshake mode h => do return handshakeModeShown mode (← handshakeShown h)
    | .extended e => extendedShown e
  | .looseHandshake mode item => do return handshakeModeShown mode (← shown item)
  | .handshake h => handshakeShown h
  | .settings s => settingsShown s
  | .profile p => profileShown p
  | .looseProfile p asking options => profileShownWith p (shown? asking) (shown? options)
  | .program items => do return record "HpglProgram" [("commands", tupleShown (← shownAll items))]
def shown? : Option Item → Except Fault (List Char)
  | none => .ok "None".toList
  | some x => shown x
def shownAll : List Item → Except Fault (List (List Char))
  | [] => .ok []
  | x :: xs => do
    let a ← shown x
    return a :: (← shownAll xs)
end

def samePoint (a b : Point) : Bool := a.x.same b.x && a.y.same b.y

def sameList {α : Type} (eq : α → α → Bool) (xs ys : List α) : Bool :=
  xs.length == ys.length && (xs.zip ys).all fun p => eq p.1 p.2

def sameHandshake : Handshake → Handshake → Bool
  | .enqAck a b s, .enqAck c d t => a.same c && b.same d && s == t
  | .xonXoff a s, .xonXoff b t => a.same b && s == t
  | _, _ => false

def sameExtended (a b : Extended) : Bool := a.delay.same b.delay && a.triggers == b.triggers

def sameCommand : Command → Command → Bool
  | .defaults, .defaults | .initializePlotter, .initializePlotter => true
  | .penUp, .penUp | .penDown, .penDown => true
  | .selectPen a, .selectPen b => a.same b
  | .velocity a, .velocity b => a.same b
  | .plot a, .plot b => sameList samePoint a b
  | _, _ => false

def sameInstruction : Instruction → Instruction → Bool
  | .config a, .config b => a == b
  | .handshake m a, .handshake n b => m == n && sameHandshake a b
  | .extended a, .extended b => sameExtended a b
  | _, _ => false

def sameSettings (a b : Settings) : Bool :=
  a.baudrate.same b.baudrate && a.bytesize.same b.bytesize && a.parity.same b.parity &&
    a.stopbits.same b.stopbits && a.flowControl.same b.flowControl &&
    a.timeout.same b.timeout && a.writeTimeout.same b.writeTimeout

def sameProfile (a b : Profile) : Bool :=
  a.id == b.id && a.name == b.name && sameSettings a.serial b.serial && a.config == b.config &&
    (match a.handshake, b.handshake with
      | some x, some y => x.1 == y.1 && sameHandshake x.2 y.2
      | none, none => true
      | _, _ => false) &&
    (match a.extended, b.extended with
      | some x, some y => sameExtended x y
      | none, none => true
      | _, _ => false)

mutual
/-- Equality of items: the same kind and equal fields, numbers by value. -/
def same : Item → Item → Bool
  | .plain a, .plain b => a.same b
  | .point a, .point b => samePoint a b
  | .chain a, .chain b => sameList samePoint a b
  | .command a, .command b => sameCommand a b
  | .instruction a, .instruction b => sameInstruction a b
  | .handshake a, .handshake b => sameHandshake a b
  | .settings a, .settings b => sameSettings a b
  | .profile a, .profile b => sameProfile a b
  | .program a, .program b => sameAll a b
  | .looseChain a, .looseChain b => sameAll a b
  | .loosePlot a, .loosePlot b => sameAll a b
  | .looseHandshake m a, .looseHandshake n b => m == n && same a b
  | .looseProfile p a b, .looseProfile q c d => sameProfile p q && same? a c && same? b d
  | _, _ => false
def same? : Option Item → Option Item → Bool
  | none, none => true
  | some x, some y => same x y
  | _, _ => false
def sameAll : List Item → List Item → Bool
  | [], [] => true
  | x :: xs, y :: ys => same x y && sameAll xs ys
  | _, _ => false
end

def coordinates : List Item → Except Fault (List (List Char))
  | [] => .ok []
  | .point p :: rest => do
    let a ← p.text
    return a :: (← coordinates rest)
  | item :: _ => .error (.missingField item.kindName "x")

def chainText (items : List Item) : Except Fault (List Char) := do
  return [','].intercalate (← coordinates items)

/-- The bytes of an item where a command is wanted. -/
def commandFrame : Item → Except Fault Bytes
  | .command c => c.frame
  | .loosePlot items => do return asciiBytes ('P' :: 'A' :: (← chainText items) ++ [';'])
  | item => do throw (.notACommand (← item.shown))

def instructionFrame : Item → Except Fault Bytes
  | .instruction i => i.frame
  | .looseHandshake _ item => do throw (.unsupportedHandshake (← item.shown))
  | item => do throw (.notAnInstruction (← item.shown))

def chainFrame (item : Item) : Except Fault Bytes := do
  return asciiBytes (← chainText (← item.walk))

/-- A frame for each part of an item that is walked through, or the fault that there are none. -/
def framesOf (frame : Item → Except Fault Bytes) (item : Item) : List (Except Fault Bytes) :=
  match item.walk with
  | .ok items => items.map frame
  | .error f => [.error f]

def commandFrames : Item → List (Except Fault Bytes) := framesOf commandFrame

def instructionFrames : Item → List (Except Fault Bytes) := framesOf instructionFrame

/-- The bytes of commands, one frame after the other. -/
def encodeAll (items : List Item) : Except Fault Bytes := do
  return (← items.mapM commandFrame).flatten

def encode : Item → Except Fault Bytes
  | .program items => encodeAll items
  | item@(.command _) | item@(.loosePlot _) => item.commandFrame
  | item@(.instruction _) | item@(.looseHandshake ..) => item.instructionFrame
  | item@(.chain _) | item@(.looseChain _) => item.chainFrame
  | .point p => do return asciiBytes (← p.text)
  | item => .error (.notEncodable item.kindName)

def isCommand : Item → Bool
  | .command _ | .loosePlot _ => true
  | _ => false

/-- A program with commands behind it, whatever they are. -/
def appended (items commands : List Item) : List Item := items ++ commands

/-- A program with another one or one command behind it. -/
def append (items : List Item) : Item → Except Fault (List Item)
  | .program more => .ok (items ++ more)
  | item =>
    if item.isCommand then .ok (appended items [item])
    else .error (.notAddable "HpglProgram" item.kindName)

/-- An item with a program behind it. Lists, texts and bytes refuse in words of their own. -/
def prepend (item : Item) (items : List Item) : Except Fault (List Item) :=
  match item with
  | .program front => .ok (front ++ items)
  | .plain (.list _) => .error (.notConcatenable "list" "HpglProgram")
  | .plain (.str _) | .plain (.codes _) => .error (.notConcatenable "str" "HpglProgram")
  | .plain (.bytes _) => .error (.notConcatenableBytes "HpglProgram")
  | item => .error (.notAddable item.kindName "HpglProgram")

end Item

end PenPlotter
