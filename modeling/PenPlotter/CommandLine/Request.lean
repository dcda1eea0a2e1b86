import PenPlotter.CommandLine.Switch
import PenPlotter.World.Files
/-!
# Requests

What the arguments of the command line ask for. The first word names the command, and the other
arguments are its own.
-/
namespace PenPlotter.CommandLine

structure JobChoice where
  path : PathName
  profile : Option String := none
  setup : Bool := true
  deriving DecidableEq, Repr

inductive Request where
  | help
  /-- Lists the profiles. -/
  | profiles
  /-- Writes a job's bytes to a file or to the standard output. -/
  | encode (job : JobChoice) (output : Option PathName) (hex : Bool)
  /-- Sends a job to a plotter. -/
  | plot (job : JobChoice) (port : String)
  deriving DecidableEq, Repr

namespace Request

def encodeSwitches : List Switch := [.profile, .noSetup, .output, .hex, .help]

def plotSwitches : List Switch := [.port, .profile, .noSetup, .help]

/-- The name of a file. No file has a name with a nul in it. -/
def path? (text : String) : Option PathName :=
  if text.toList.contains '\x00' then none else some (PathName.ofText text)

/-- The job that is chosen: there is just one word. -/
def jobChoice? (given : List Given) : Option JobChoice :=
  match words given with
  | [word] => (path? word).map fun path =>
    ⟨path, valueOf? given .profile, !isGiven given .noSetup⟩
  | _ => none

/-- The request of well-formed arguments. Asking for help goes before all else. -/
def orHelp (request? : List Given → Option Request) (given : List Given) : Option Request :=
  if isGiven given .help then some .help else request? given

def ofCommand? (name : String) (arguments : List String) : Option Request :=
  match name with
  | "profiles" => (givenBy [.help] arguments).bind <| orHelp fun given =>
    if (words given).isEmpty then some .profiles else none
  | "encode" => (givenBy encodeSwitches arguments).bind <| orHelp fun given => do
    let output ← (valueOf? given .output).mapM path?
    return .encode (← jobChoice? given) output (isGiven given .hex)
  | "plot" => (givenBy plotSwitches arguments).bind <| orHelp fun given => do
    return .plot (← jobChoice? given) (← valueOf? given .port)
  | _ => none

/-- The request of all arguments; two hyphens may stand before the command. -/
def ofArguments? : List String → Option Request
  | "--help" :: _ => some .help
  | "--" :: name :: rest => ofCommand? name rest
  | name :: rest => ofCommand? name rest
  | [] => none

end Request

end PenPlotter.CommandLine
