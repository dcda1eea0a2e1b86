import PenPlotter.Value.Number
/-!
# Commands

The commands of a plot and their text. A command is two letters and its numbers; each is closed by a
semicolon. Fields hold whatever value the caller gave, and a value that is no number is found when
the command is written.
-/
namespace PenPlotter
open Text

structure Point where
  x : Value
  y : Value

inductive Command where
  | defaults
  | initializePlotter
  | selectPen (pen : Value)
  | velocity (velocity : Value)
  | penUp
  | penDown
  | plot (points : List Point)

def asciiBytes (s : List Char) : Bytes := s.map fun c => UInt8.ofNat c.toNat

def encodeAscii (s : List Char) : Except Fault Bytes :=
  if s.all (fun c => decide (c.toNat < 128)) then .ok (asciiBytes s) else .error (.notAscii s)

namespace Point

def text (p : Point) : Except Fault (List Char) := do
  let x ← p.x.numberText
  let y ← p.y.numberText
  return x ++ ',' :: y

/-- The coordinates of several points, with commas between all numbers. -/
def chainText (points : List Point) : Except Fault (List Char) := do
  return [','].intercalate (← points.mapM text)

end Point

namespace Command

/-- A command without its closing semicolon. Selecting a pen has the letters of initializing and a
number behind them. -/
def text : Command → Except Fault (List Char)
  | .defaults => .ok ['D', 'F']
  | .initializePlotter => .ok ['I', 'N']
  | .selectPen pen => do return 'I' :: 'N' :: (← pen.numberText)
  | .velocity v => do return 'V' :: 'S' :: (← v.numberText)
  | .penUp => .ok ['P', 'U']
  | .penDown => .ok ['P', 'D']
  | .plot points => do return 'P' :: 'A' :: (← Point.chainText points)

def frame (c : Command) : Except Fault Bytes := do
  return asciiBytes ((← c.text) ++ [';'])

end Command

end PenPlotter
