import PenPlotter.Plot.Command
import PenPlotter.Schema.Basic
import PenPlotter.Schema.Violation
import PenPlotter.Value.Number
import PenPlotter.World.Document
/-!
# Jobs

The commands of a job document. The schema is checked first; after it, a number can only fail by
being nan or infinite, and the first such number in the order of the document is named.
-/
namespace PenPlotter.Job
open Text

/-! ## The schema -/

def bareNames : List String := ["default_settings", "initialize", "pen_up", "pen_down"]

def bareSchema : Schema := [.enum (bareNames.map .str)]

def pairSchema : Schema :=
  [.kinds [.array], .minItems 2, .maxItems 2, .items [.kinds [.number]]]

def plotSchema : Schema := [.kinds [.array], .minItems 1, .items pairSchema]

def namedSchema : Schema :=
  [.kinds [.object], .closed ["select_pen", "velocity", "plot_absolute"], .minEntries 1,
    .maxEntries 1,
    .properties [("select_pen", [.kinds [.integer], .minimum 0]),
      ("velocity", [.kinds [.number]]), ("plot_absolute", plotSchema)]]

def commandSchema : Schema := [.anyOf [bareSchema, namedSchema]]

def schema : Schema :=
  [.kinds [.object], .closed ["commands"], .required ["commands"],
    .properties [("commands", [.kinds [.array], .items commandSchema])]]

/-! ## Documents and files -/

def bareCommands : List (String × Command) :=
  [("default_settings", .defaults), ("initialize", .initializePlotter), ("pen_up", .penUp),
    ("pen_down", .penDown)]

/-- A value as a number of a command: a double must be finite. -/
def finite (source place : String) (v : Value) : Except Failure Value :=
  match v with
  | .double (.finite ..) => .ok v
  | .double x => .error (.document ⟨.job, source, .notFinite place x.general⟩)
  | v => .ok v

def points (source place : String) : Nat → List Value → Except Failure (List Point)
  | _, [] => .ok []
  | i, v :: vs => do
    let (x, y) ← v.pair.mapError .fault
    let x ← finite source s!"{place}.plot_absolute.{i}.0" x
    let y ← finite source s!"{place}.plot_absolute.{i}.1" y
    return ⟨x, y⟩ :: (← points source place (i + 1) vs)

def command (source place : String) : Value → Except Failure Command
  | .str s => match bareCommands.find? (·.1 == s) with
    | some c => .ok c.2
    | none => .error (.fault (.unknownName (quoted s.toList)))
  | .map es => match Value.entries es with
    | [(.str "select_pen", v)] => do return .selectPen (.int (← v.toInt.mapError .fault))
    | [(.str "velocity", v)] => do return .velocity (← finite source s!"{place}.velocity" v)
    | [(_, v)] => do return .plot (← points source place 0 (← v.walk.mapError .fault))
    | _ => .error (.fault .pairTooLong)
  | v => .error (.fault (.missingField v.kindName "items"))

def commands (source : String) : Nat → List Value → Except Failure (List Command)
  | _, [] => .ok []
  | i, v :: vs => do
    let c ← command source s!"commands.{i}" v
    return c :: (← commands source (i + 1) vs)

def itemsOf : Value → List Value
  | .map es => match Value.lookup? "commands" (Value.entries es) with
    | some (.list xs) => Value.items xs
    | _ => []
  | _ => []

/-- The commands of a job document; `source` names the document in messages. -/
def build (source : String) (doc : Value) : Except Failure (List Command) := do
  Schema.check schema .job source doc
  commands source 0 (itemsOf doc)

def load (w : World) (p : PathName) : Except Failure (List Command) := do
  build p.text (← w.document .job p)

end PenPlotter.Job
