import PenPlotter.Failure
import PenPlotter.Text.Code
/-!
# Files and variables

The part of the world that the program sees: files and folders by their place below the root, the
working folder, and the variables that are set. A path name is relative or starts at the root. Empty parts
and single points are dropped when it is read; two points stay, since only the files themselves tell where
they lead.
-/
namespace PenPlotter
open Text

/-! ## Path names -/

/-- `root` is empty, one slash, or the two slashes that a name may start with. -/
structure PathName where
  root : String := ""
  parts : List String := []
  deriving DecidableEq, Repr, Inhabited

namespace PathName

def rootOf : List Char → String
  | '/' :: '/' :: '/' :: _ => "/"
  | '/' :: '/' :: _ => "//"
  | '/' :: _ => "/"
  | _ => ""

def partsOf (s : List Char) : List String :=
  ((splitAt '/' s).filter fun p => p != [] && p != ['.']).map String.ofList

def ofText (s : String) : PathName := ⟨rootOf s.toList, partsOf s.toList⟩

def text (p : PathName) : String :=
  if p.root.isEmpty && p.parts.isEmpty then "." else p.root ++ "/".intercalate p.parts

def below (p : PathName) (parts : List String) : PathName := { p with parts := p.parts ++ parts }

/-- The last point of a part and what follows, if there is something on both sides of it. -/
def suffix (part : String) : String :=
  let reversed := part.toList.reverse
  let after := reversed.takeWhile (· != '.')
  let before := (reversed.dropWhile (· != '.')).drop 1
  if after.isEmpty || before.isEmpty then "" else String.ofList ('.' :: after.reverse)

end PathName

/-! ## Files -/

inductive Entry where
  | file (content : Bytes)
  | folder

structure World where
  entries : List (List String × Entry) := []
  /-- The working folder. -/
  current : List String := []
  environment : List (String × String) := []
  /-- The home folder where no variable names one. -/
  home : PathName := ⟨"/", ["root"]⟩

namespace World

def entry? (w : World) (place : List String) : Option Entry :=
  if place.isEmpty then some .folder else w.entries.lookup place

def set (w : World) (place : List String) (e : Entry) : World :=
  { w with entries := (place, e) :: w.entries.filter (·.1 != place) }

def makeFolders (w : World) (place : List String) : World :=
  (List.range place.length).foldl (fun w n =>
    if (w.entry? (place.take n)).isSome then w else w.set (place.take n) .folder) w

def place (w : World) (here : List String) (e : Entry) : World :=
  (w.makeFolders here).set here e

def follow (w : World) : List String → List String → Except FileProblem (List String)
  | here, [] => .ok here
  | here, part :: rest =>
    match w.entry? here with
    | some .folder =>
      if part = ".." then follow w here.dropLast rest
      else if 255 < part.utf8ByteSize then .error .nameTooLong
      else if (w.entry? (here ++ [part])).isSome then follow w (here ++ [part]) rest
      else .error .missing
    | some (.file _) => .error .notDirectory
    | none => .error .missing

def base (w : World) (p : PathName) : List String := if p.root.isEmpty then w.current else []

def hasNul (p : PathName) : Bool := p.parts.any fun part => part.toList.contains '\x00'

def nameLimit : Nat := 4095

def locate (w : World) (p : PathName) (parts : List String) : Except FileProblem (List String) :=
  if nameLimit < p.text.utf8ByteSize then .error .nameTooLong else w.follow (w.base p) parts

def read (w : World) (p : PathName) : Except FileProblem Bytes := do
  let here ← w.locate p p.parts
  match w.entry? here with
  | some (.file content) => return content
  | some .folder => throw .isDirectory
  | none => throw .missing

/-- The world with a file's content written; the file is made if its folder is there. -/
def write (w : World) (p : PathName) (content : Bytes) : Except FileProblem World := do
  match p.parts.getLast? with
  | none => throw .isDirectory
  | some name =>
    let folder ← w.locate p p.parts.dropLast
    match w.entry? folder with
    | some (.file _) => throw .notDirectory
    | none => throw .missing
    | some .folder =>
      if name = ".." then throw .isDirectory
      if 255 < name.utf8ByteSize then throw .nameTooLong
      match w.entry? (folder ++ [name]) with
      | some .folder => throw .isDirectory
      | _ => return w.set (folder ++ [name]) (.file content)

def namesAt (w : World) (here : List String) : List String :=
  let found := w.entries.filterMap fun e =>
    if e.1.length = here.length + 1 ∧ e.1.dropLast = here then e.1.getLast? else none
  sortBy (fun name => name) found

/-- The names in a folder. There are none in anything else, but a name that is too long fails. -/
def names (w : World) (p : PathName) : Except FileProblem (List String) :=
  match w.locate p p.parts with
  | .ok here => .ok (w.namesAt here)
  | .error .nameTooLong => .error .nameTooLong
  | .error _ => .ok []

def getVariable? (w : World) (name : String) : Option String := w.environment.lookup name

/-- The home folder. A name that starts with a tilde is none. -/
def homeFolder (w : World) : Except Failure PathName :=
  match w.getVariable? "HOME" with
  | none => .ok w.home
  | some s =>
    let trimmed := String.ofList (s.toList.reverse.dropWhile (· == '/')).reverse
    if trimmed.startsWith "~" then .error .noHome
    else .ok (PathName.ofText (if trimmed.isEmpty then "/" else trimmed))

end World

end PenPlotter
