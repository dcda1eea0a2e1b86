import PenPlotter.Profile.Build
import PenPlotter.World.Document
/-!
# The catalog of profiles

The packaged profiles and those in the user's folders. Files are read in a fixed order, and a later
profile takes the place of an earlier one of the same identifier; a user's profile that does so gives
a warning.
-/
namespace PenPlotter.Profile

def modeTwoText : String :=
  "\n".intercalate [
    "id: hp7470a",
    "name: HP 7470A, XON/XOFF handshake mode 2",
    "serial:",
    "  baudrate: 9600",
    "  bytesize: 8",
    "  parity: none",
    "  stopbits: 1",
    "  flow_control: software",
    "  timeout_s: 20",
    "setup:",
    "  plotter_config: []",
    "  handshake:",
    "    mode: 2",
    "    type: xon_xoff",
    "    xoff_threshold: 80",
    "    xon_trigger_chars: [17]   # DC1",
    "  ext_handshake:",
    "    interchar_delay: null",
    "    xoff_trigger_chars: [19]  # DC3",
    ""]

def modeOneText : String :=
  "\n".intercalate [
    "id: hp7470a_mode1",
    "name: HP 7470A, XON/XOFF handshake mode 1, odd parity",
    "serial:",
    "  baudrate: 9600",
    "  bytesize: 8",
    "  parity: odd",
    "  stopbits: 1",
    "  flow_control: software",
    "  timeout_s: 1",
    "setup:",
    "  plotter_config: []",
    "  handshake:",
    "    mode: 1",
    "    type: xon_xoff",
    "    xoff_threshold: 80",
    "    xon_trigger_chars: [17]   # DC1",
    "  ext_handshake:",
    "    interchar_delay: null",
    "    xoff_trigger_chars: [19]  # DC3",
    ""]

def packaged : List (String × String) :=
  [("hp7470a.yaml", modeTwoText), ("hp7470a_mode1.yaml", modeOneText)]

end PenPlotter.Profile

namespace PenPlotter

/-- Profiles by identifier, in the order of their entry. A profile is only ever entered under its own
identifier, so that no key stands beside it. -/
abbrev Catalog := List Profile

namespace Catalog

def has (c : Catalog) (id : String) : Bool := c.any (·.id == id)

/-- Adds a profile, in the place of the one with its identifier if there is one. -/
def put (c : Catalog) (p : Profile) : Catalog :=
  if c.has p.id then c.map fun q => if q.id == p.id then p else q else c ++ [p]

def overrideWarning (id : String) : String := s!"User profile '{id}' overrides packaged profile"

def packagedFiles (found : List (String × Entry)) : List (String × Entry) :=
  let isProfile := fun (f : String × Entry) =>
    [".yml", ".yaml"].any fun ending => ending.toList.isSuffixOf f.1.toList
  Text.sortBy (·.1) (found.filter isProfile)

def readPackaged (f : String × Entry) : Except Failure Profile := do
  match f.2 with
  | .file content => Profile.build f.1 (← documentOfBytes .profile f.1 content)
  | .folder => .error (.document ⟨.profile, f.1, .unreadable ⟨.isDirectory, f.1⟩⟩)

def packaged (found : List (String × Entry)) : Except Failure Catalog :=
  (packagedFiles found).foldlM (fun c f => do return c.put (← readPackaged f)) []

def folder (w : World) (name : String) (inHome : List String) : Except Failure PathName := do
  let home ← w.homeFolder
  let top := match w.getVariable? name with
    | some s => PathName.ofText s
    | none => home.below inHome
  return top.below ["hpglctl", "profiles"]

def filesIn (w : World) (p : PathName) : Except Failure (List PathName) :=
  match w.names p with
  | .error problem => .error (.file ⟨problem, p.text⟩)
  | .ok names =>
    let isProfile := fun n => [".yml", ".yaml"].contains (PathName.suffix n)
    .ok ((names.filter isProfile).map fun n => p.below [n])

def userFiles (w : World) : Except Failure (List PathName) := do
  let config ← folder w "XDG_CONFIG_HOME" [".config"]
  let data ← folder w "XDG_DATA_HOME" [".local", "share"]
  let first ← filesIn w config
  return first ++ (← filesIn w data)

def readUser (w : World) (p : PathName) : Except Failure Profile := do
  Profile.build p.text (← w.document .profile p)

/-- Reads the user's profiles into a catalog. The warnings are those given before a failure, if there
is one. -/
def addUser (w : World) : List PathName → Catalog → List String × Except Failure Catalog
  | [], c => ([], .ok c)
  | p :: rest, c =>
    match readUser w p with
    | .error e => ([], .error e)
    | .ok profile =>
      let (warnings, result) := addUser w rest (c.put profile)
      (if c.has profile.id then overrideWarning profile.id :: warnings else warnings, result)

/-- Loads all profiles; `found` is what the packaged folder holds, in any order. The warnings are told as
they come up, and returned with the catalog. -/
def loadFrom (found : List (String × Entry)) (w : World) : List String × Except Failure Catalog :=
  match packaged found with
  | .error e => ([], .error e)
  | .ok c => match userFiles w with
    | .error e => ([], .error e)
    | .ok paths => addUser w paths c

def load (files : List (String × String)) (w : World) : List String × Except Failure Catalog :=
  loadFrom (files.map fun f => (f.1, .file (Text.Utf8.encode f.2.toList))) w

def defaultId : String := "hp7470a"

def ids (c : Catalog) : List String := Text.sortBy (fun id => id) (c.map (·.id))

def sorted (c : Catalog) : List Profile := Text.sortBy (·.id) c

/-- The profile that is meant; no identifier and the empty one mean the default. -/
def resolve (c : Catalog) (id : Option String) : Except Failure Profile :=
  let wanted := match id with
    | none | some "" => defaultId
    | some id => id
  match c.find? (·.id == wanted) with
  | some p => .ok p
  | none => .error (.unknownProfile wanted c.ids)

def drop (c : Catalog) (id : String) : Catalog := c.filter (·.id != id)

end Catalog

end PenPlotter
