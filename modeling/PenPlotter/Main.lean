import PenPlotter.CommandLine.Outcome
/-!
# The program

Takes the arguments, reads what they name, and carries out the outcome: the file that is written, the
bytes for the plotter, both outputs and the exit code. The device file of a port must have been set
to the profile's options.
-/
open PenPlotter PenPlotter.CommandLine

def entryAt (path : String) : IO (Option Entry) := do
  try
    let found ← IO.FS.realPath path
    if ← found.isDir then return some .folder
    return some (.file (← IO.FS.readBinFile path).toList)
  catch _ => return none

def placeFrom (folder parts : List String) : List String :=
  parts.foldl (fun here part => if part = ".." then here.dropLast else here ++ [part]) folder

/-- Takes what there is under a name, and under the parts in front of it, into a world. -/
def look (w : World) (p : PathName) : IO World :=
  (List.range p.parts.length).foldlM (fun w n => do
    let part := { p with parts := p.parts.take (n + 1) }
    match ← entryAt part.text with
    | some e => return w.place (placeFrom (w.base p) part.parts) e
    | none => return w) w

def lookInto (w : World) (p : PathName) : IO World := do
  let w ← look w p
  try
    let entries ← (← IO.FS.realPath p.text).readDir
    entries.toList.foldlM (fun w e => look w (p.below [e.fileName])) w
  catch _ => return w

def surroundings : IO World := do
  let names := ["XDG_CONFIG_HOME", "XDG_DATA_HOME", "HOME"]
  let environment ← names.filterMapM fun name => do return (← IO.getEnv name).map fun s => (name, s)
  let current := PathName.ofText (← IO.currentDir).toString
  let w : World := { current := current.parts, environment }
  return w.place current.parts .folder

def worldFor (r : Request) : IO World := do
  let w ← surroundings
  let folders := [Catalog.folder w "XDG_CONFIG_HOME" [".config"],
    Catalog.folder w "XDG_DATA_HOME" [".local", "share"]]
  let w ← (folders.filterMap Except.toOption).foldlM lookInto w
  match r with
  | .encode job (some output) _ =>
    let w ← look w job.path
    look w output
  | .encode job none _ | .plot job _ => look w job.path
  | .help | .profiles => return w

def openPort (port : String) : IO (Except DeviceError IO.FS.Handle) := do
  try
    return .ok (← IO.FS.Handle.mk port IO.FS.Mode.readWrite)
  catch e => return .error ⟨.line, toString e⟩

def replay (device : IO.FS.Handle) (line : Line) : IO Unit := do
  for e in line.events do
    if let .wrote data _ := e then device.write ⟨data.toArray⟩
  device.flush

def present (o : Outcome) : IO UInt32 := do
  (← IO.getStdout).write ⟨o.desk.out.toArray⟩
  (← IO.getStderr).putStr (String.ofList o.desk.err)
  if let some e := o.escaped then (← IO.getStderr).putStrLn e.message
  return UInt32.ofNat o.code

def writeOutput (o : Outcome) (output : PathName) : IO Unit := do
  if let (0, .ok data) := (o.code, o.desk.world.read output) then
    IO.FS.writeBinFile output.text ⟨data.toArray⟩

def carryOut (arguments : List String) (r : Request) : IO UInt32 := do
  let world ← worldFor r
  let run (script : DeviceScript) :=
    outcome (Catalog.load Profile.packaged world) (.serial script) arguments world
  match r with
  | .plot _ port => match ← openPort port with
    | .error e => present (run { openError := some e })
    | .ok device =>
      replay device (run {}).desk.line
      present (run {})
  | .encode _ (some output) _ =>
    writeOutput (run {}) output
    present (run {})
  | _ => present (run {})

def main (arguments : List String) : IO UInt32 :=
  match Request.ofArguments? arguments with
  | some r => carryOut arguments r
  | none => present (outcome ([], .ok []) (.serial {}) arguments {})
