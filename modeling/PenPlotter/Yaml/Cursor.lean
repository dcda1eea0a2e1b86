import PenPlotter.Failure
/-!
# Places and tokens in a document's text

A mark counts characters, lines and columns from 0; a cursor is a mark with the text behind it. The
character classes here tell what may end a line, a word or a token, where the end of the text ends
all three. A token has the marks of its start
and its end.
-/
namespace PenPlotter.Yaml
open Text

/-- Whether a character ends a line. Returns are gone before a document is read. -/
def isBreak (c : Char) : Bool :=
  c == '\n' || c == '\x85' || c == '\u2028' || c == '\u2029'

def isSpaceOrTab (c : Char) : Bool := c == ' ' || c == '\t'

def endsLine : Option Char → Bool
  | none => true
  | some c => isBreak c

def endsWord : Option Char → Bool
  | none => true
  | some c => c == ' ' || isBreak c

def endsToken : Option Char → Bool
  | none => true
  | some c => isSpaceOrTab c || isBreak c

structure Mark where
  index : Nat := 0
  line : Nat := 0
  column : Nat := 0
  deriving DecidableEq, Repr, Inhabited

/-- Why reading a document's text ends early. A key that stands twice is named with the place of the
second one. -/
inductive Flaw where
  | malformed (stage : Stage)
  | duplicateKey (key : List Code) (mark : Mark)
  | fault (fault : Fault)
  deriving DecidableEq, Repr

/-- The mark behind a character. A byte-order mark has no width. -/
def Mark.after (m : Mark) (c : Char) : Mark :=
  if isBreak c then ⟨m.index + 1, m.line + 1, 0⟩
  else ⟨m.index + 1, m.line, if c = '\ufeff' then m.column else m.column + 1⟩

/-- `size` is the length of the whole text. -/
structure Cursor where
  rest : List Char
  mark : Mark := {}
  size : Nat := rest.length

namespace Cursor

def peek (c : Cursor) : Option Char := c.rest.head?

def column (c : Cursor) : Nat := c.mark.column

def skip (c : Cursor) (n : Nat) : Cursor :=
  { c with rest := c.rest.drop n, mark := (c.rest.take n).foldl Mark.after c.mark }

def next (c : Cursor) : Cursor := c.skip 1

def span (c : Cursor) (p : Char → Bool) : List Char × Cursor :=
  let run := c.rest.takeWhile p
  (run, c.skip run.length)

def skipWhile (c : Cursor) (p : Char → Bool) : Cursor := (c.span p).2

/-- A line break at the cursor, and the cursor behind it. All breaks but the line and paragraph
separators count as a newline. -/
def lineBreak (c : Cursor) : Option (Char × Cursor) :=
  match c.rest with
  | x :: _ =>
    if isBreak x then some (if x == '\x85' then '\n' else x, c.next) else none
  | [] => none

/-- Whether three characters stand at the cursor with nothing but an end of a token behind them. -/
def standsAlone (c : Cursor) (x : Char) : Bool :=
  c.rest.take 3 == [x, x, x] && endsToken c.rest[3]?

def atSeparator (c : Cursor) : Bool := c.standsAlone '-' || c.standsAlone '.'

/-- Skips the spaces and the comment that may end a line, and the line break. -/
def restOfLine (c : Cursor) : Except Flaw Cursor :=
  let c := c.skipWhile (· == ' ')
  let c := if c.peek == some '#' then c.skipWhile (fun x => !isBreak x) else c
  if endsLine c.peek then .ok (match c.lineBreak with | some (_, c) => c | none => c)
  else .error (.malformed .tokens)

end Cursor

/-! ## Tokens -/

inductive TokenKind where
  | version (major : Nat)
  | handle (handle expansion : List Char)
  | otherDirective
  | documentStart
  | documentEnd
  | streamEnd
  | blockSequence
  | blockMapping
  | blockEnd
  | flowSequence
  | flowSequenceEnd
  | flowMapping
  | flowMappingEnd
  | blockEntry
  | flowEntry
  | key
  | value
  | alias (name : List Char)
  | anchor (name : List Char)
  /-- A tag in two parts; one without a handle is complete. -/
  | tag (handle : Option (List Char)) (suffix : List Char)
  | scalar (text : List Code) (plain : Bool)
  deriving DecidableEq, Repr

structure Token where
  kind : TokenKind
  start : Mark
  stop : Mark

end PenPlotter.Yaml
