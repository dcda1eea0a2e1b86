/-!
# Switches

The named parameters of the commands. A switch is a flag or takes a value, which follows it as the
next argument or within the same one. Two hyphens alone end the switches.
-/
namespace PenPlotter.CommandLine

inductive Switch where
  | help
  | profile
  | noSetup
  | output
  | hex
  | port
  deriving DecidableEq, Repr

namespace Switch

def names : Switch → List String
  | help => ["--help"]
  | profile => ["--profile"]
  | noSetup => ["--no-setup"]
  | output => ["--output", "-o"]
  | hex => ["--hex"]
  | port => ["--port"]

def takesValue : Switch → Bool
  | profile | output | port => true
  | help | noSetup | hex => false

def named? (known : List Switch) (name : List Char) : Option Switch :=
  known.find? fun s => s.names.contains (String.ofList name)

end Switch

/-- The form of an argument. A switch of two hyphens may have a value behind an equals sign, and one
of a single hyphen and a letter may have one right behind the letter. -/
inductive Form where
  | word
  | noMoreSwitches
  | switch (name : List Char) (attached : Option (List Char))
  deriving DecidableEq, Repr

def Form.of : List Char → Form
  | ['-', '-'] => .noMoreSwitches
  | '-' :: '-' :: rest =>
    let name := rest.takeWhile (· != '=')
    match rest.drop name.length with
    | [] => .switch ('-' :: '-' :: name) none
    | _ :: value => .switch ('-' :: '-' :: name) (some value)
  | ['-', c] => .switch ['-', c] none
  | '-' :: c :: value => .switch ['-', c] (some value)
  | _ => .word

inductive Given where
  | flag (switch : Switch)
  | value (switch : Switch) (text : String)
  | word (text : String)
  deriving DecidableEq, Repr

/-- What arguments give, if they are well formed. -/
def givenBy (known : List Switch) : List String → Option (List Given)
  | [] => some []
  | argument :: rest =>
    match Form.of argument.toList with
    | .word => (givenBy known rest).map (.word argument :: ·)
    | .noMoreSwitches => some (rest.map .word)
    | .switch name attached =>
      match Switch.named? known name with
      | none => none
      | some s =>
        match s.takesValue, attached, rest with
        | false, none, rest => (givenBy known rest).map (.flag s :: ·)
        | true, some v, rest => (givenBy known rest).map (.value s (String.ofList v) :: ·)
        | true, none, v :: rest => (givenBy known rest).map (.value s v :: ·)
        | _, _, _ => none

def isGiven (given : List Given) (s : Switch) : Bool := given.contains (.flag s)

/-- The value of a switch; of several the last counts. -/
def valueOf? (given : List Given) (s : Switch) : Option String :=
  (given.filterMap fun g => match g with
    | .value t text => if t = s then some text else none
    | _ => none).getLast?

def words (given : List Given) : List String :=
  given.filterMap fun g => match g with
    | .word text => some text
    | _ => none

end PenPlotter.CommandLine
