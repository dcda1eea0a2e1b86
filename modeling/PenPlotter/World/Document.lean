import PenPlotter.World.Files
import PenPlotter.Yaml.Builder
import PenPlotter.Yaml.Lexer
/-!
# Documents

The value of a document's text, how a place in the text is shown, and the documents of files. A file's
document is UTF-8 text that holds a mapping.
-/
namespace PenPlotter.Yaml
open Text

def isDocumentChar (c : Char) : Bool :=
  let n := c.toNat
  n == 9 || n == 10 || n == 13 || (0x20 ≤ n && n ≤ 0x7e) || n == 0x85 ||
    (0xa0 ≤ n && n ≤ 0xd7ff) || (0xe000 ≤ n && n ≤ 0xfffd) || 0x10000 ≤ n

/-- The value of a document's text; that of an empty text is null. -/
def read (text : List Char) : Except Flaw Value := do
  if !text.all isDocumentChar then throw (.malformed .characters)
  match ← node? (events (tokens text)) with
  | none => return .null
  | some (g, root) => g.value root

/-! ## Showing a place -/

/-- How many characters of a line are shown on either side of a mark. A side with more loses the
outermost five to an ellipsis. -/
def sideLength : Nat := 36

def side (characters : List Char) : List Char × List Char :=
  let line := characters.takeWhile fun c => !isBreak c
  if line.length ≤ sideLength then (line, []) else (line.take (sideLength - 4), " ... ".toList)

/-- Line and column of a mark in a text, the line itself and a caret below the mark. -/
def Mark.shown (text : List Char) (m : Mark) : List Char :=
  let (before, head) := side (text.take m.index).reverse
  let (after, tail) := side (text.drop m.index)
  s!"  in \"<unicode string>\", line {m.line + 1}, column {m.column + 1}:\n    ".toList ++
    head ++ before.reverse ++ after ++ tail ++ '\n' ::
    List.replicate (4 + head.length + before.length) ' ' ++ ['^']

def duplicateKeyMessage (text : List Char) (key : List Code) (m : Mark) : List Char :=
  "Duplicate key '".toList ++ escapeHalves key ++ "' at ".toList ++ m.shown text

end PenPlotter.Yaml

namespace PenPlotter
open Text

def documentOfText (role : DocumentRole) (source : String) (text : List Char) :
    Except Failure Value :=
  match Yaml.read text with
  | .ok doc => match doc with
    | .map _ => .ok doc
    | _ => .error (.document ⟨role, source, .notAMapping⟩)
  | .error flaw => match flaw with
    | .malformed stage => .error (.document ⟨role, source, .malformed stage⟩)
    | .duplicateKey key mark =>
      .error (.document ⟨role, source, .duplicateKey (Yaml.duplicateKeyMessage text key mark)⟩)
    | .fault f => .error (.fault f)

def documentOfBytes (role : DocumentRole) (source : String) (content : Bytes) :
    Except Failure Value :=
  match Utf8.decode content with
  | .ok text => documentOfText role source (unifyNewlines text)
  | .error f => .error (.fault (.undecodable f))

def World.document (w : World) (role : DocumentRole) (p : PathName) : Except Failure Value :=
  if World.hasNul p then .error (.fault .nulInPath)
  else match w.read p with
    | .ok content => documentOfBytes role p.text content
    | .error problem => .error (.document ⟨role, p.text, .unreadable ⟨problem, p.text⟩⟩)

end PenPlotter
