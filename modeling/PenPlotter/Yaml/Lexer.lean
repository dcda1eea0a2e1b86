import PenPlotter.Yaml.Property
import PenPlotter.Yaml.Scalar
/-!
# From text to tokens

The tokens of a text, in order. Whether a mapping key starts at a token shows only at the colon
behind it, so tokens wait in a queue as long as a key may still start at one of them, and the key's
token is put in front of it afterwards. A key without an indicator fits on one line and in 1024
characters.
-/
namespace PenPlotter.Yaml
open Text

/-- A token at which a key may start. A required one is where only a key can stand. -/
structure PossibleKey where
  number : Nat
  required : Bool
  mark : Mark

structure Lexer where
  cursor : Cursor
  /-- How many flow collections are open. -/
  flow : Nat := 0
  /-- The column of the innermost block collection, and those of the ones around it. -/
  indent : Int := -1
  outer : List Int := []
  keyAllowed : Bool := true
  /-- The possible key of each flow level that has one. -/
  keys : List (Nat × PossibleKey) := []
  /-- How many tokens have left the queue. -/
  taken : Nat := 0
  queue : List Token := []
  finished : Bool := false

namespace Lexer

abbrev Result := Except Flaw Lexer

def refuse {α : Type} : Except Flaw α := .error (.malformed .tokens)

def inFlow (l : Lexer) : Bool := 0 < l.flow

def column (l : Lexer) : Nat := l.cursor.column

def push (l : Lexer) (kind : TokenKind) (start stop : Mark) : Lexer :=
  { l with queue := l.queue ++ [⟨kind, start, stop⟩] }

def mark (l : Lexer) (kind : TokenKind) : Lexer := l.push kind l.cursor.mark l.cursor.mark

def indicator (l : Lexer) (n : Nat) (kind : TokenKind) : Lexer :=
  let stop := l.cursor.skip n
  { l.push kind l.cursor.mark stop.mark with cursor := stop }

/-- Drops the possible keys that have become too long, unless one of them is required. -/
def dropStale (l : Lexer) : Result :=
  let stale := fun k : PossibleKey =>
    k.mark.line != l.cursor.mark.line || 1024 < l.cursor.mark.index - k.mark.index
  if l.keys.any fun k => stale k.2 && k.2.required then refuse
  else .ok { l with keys := l.keys.filter fun k => !stale k.2 }

/-- Drops the possible key of the current flow level, which must not be required. -/
def dropKey (l : Lexer) : Result :=
  if (l.keys.lookup l.flow).any (·.required) then refuse
  else .ok { l with keys := l.keys.filter (·.1 != l.flow) }

def saveKey (l : Lexer) : Result :=
  if l.keyAllowed then do
    let required := !l.inFlow && l.indent == l.column
    let l ← l.dropKey
    let key : PossibleKey := ⟨l.taken + l.queue.length, required, l.cursor.mark⟩
    return { l with keys := (l.flow, key) :: l.keys }
  else .ok l

/-- Closes the block collections that are indented more than a column. -/
def unwindTo (column : Int) : List Int → Lexer → Lexer
  | [], l => l
  | i :: rest, l =>
    if l.indent ≤ column then l
    else unwindTo column rest { l.mark .blockEnd with indent := i, outer := rest }

def unwind (l : Lexer) (column : Int) : Lexer :=
  if l.inFlow then l else unwindTo column l.outer l

def openBlock (l : Lexer) (column : Int) : Option Lexer :=
  if l.indent < column then some { l with outer := l.indent :: l.outer, indent := column } else none

def openHere (l : Lexer) (kind : TokenKind) : Lexer :=
  match l.openBlock l.column with
  | some l => l.mark kind
  | none => l

/-- Skips blanks, comments and line breaks. A key may start on a new line of a block. -/
def skipBlanks : (fuel : Nat) → Lexer → Lexer
  | 0, l => l
  | fuel + 1, l =>
    let c := l.cursor.skipWhile (· == ' ')
    let c := if c.peek == some '#' then c.skipWhile (fun x => !isBreak x) else c
    match c.lineBreak with
    | some (_, c) => skipBlanks fuel { l with cursor := c, keyAllowed := l.keyAllowed || !l.inFlow }
    | none => { l with cursor := c }

def skipByteOrderMark (l : Lexer) : Lexer :=
  if l.cursor.mark.index = 0 ∧ l.cursor.peek = some '\ufeff' then
    { l with cursor := l.cursor.next }
  else l

/-! ## The tokens, one kind after the other -/

def streamEnd (l : Lexer) : Result := do
  let l ← (l.unwind (-1)).dropKey
  return { l.mark .streamEnd with keyAllowed := false, keys := [], finished := true }

def directive (l : Lexer) : Result := do
  let l ← (l.unwind (-1)).dropKey
  let (kind, c) ← directiveToken l.cursor
  return { l.push kind l.cursor.mark c.mark with cursor := c, keyAllowed := false }

def documentMark (l : Lexer) (kind : TokenKind) : Result := do
  let l ← (l.unwind (-1)).dropKey
  return { l.indicator 3 kind with keyAllowed := false }

def flowStart (l : Lexer) (kind : TokenKind) : Result := do
  let l ← l.saveKey
  return { l.indicator 1 kind with flow := l.flow + 1, keyAllowed := true }

def flowEnd (l : Lexer) (kind : TokenKind) : Result := do
  let l ← l.dropKey
  return { l.indicator 1 kind with flow := l.flow - 1, keyAllowed := false }

def flowEntry (l : Lexer) : Result := do
  let l ← l.dropKey
  return { l.indicator 1 .flowEntry with keyAllowed := true }

def blockEntry (l : Lexer) : Result := do
  if !l.inFlow && !l.keyAllowed then refuse
  let l := if l.inFlow then l else l.openHere .blockSequence
  let l ← l.dropKey
  return { l.indicator 1 .blockEntry with keyAllowed := true }

def key (l : Lexer) : Result := do
  if !l.inFlow && !l.keyAllowed then refuse
  let l := if l.inFlow then l else l.openHere .blockMapping
  let l ← l.dropKey
  return { l.indicator 1 .key with keyAllowed := !l.inFlow }

/-- Puts a key's token in front of the token at which the key starts. -/
def insertKey (l : Lexer) (k : PossibleKey) : Lexer :=
  let place := k.number - l.taken
  let insert (l : Lexer) (kind : TokenKind) : Lexer :=
    { l with queue := l.queue.insertIdx place ⟨kind, k.mark, k.mark⟩ }
  let l := insert l .key
  match if l.inFlow then none else l.openBlock k.mark.column with
  | some l => insert l .blockMapping
  | none => l

def value (l : Lexer) : Result := do
  match l.keys.lookup l.flow with
  | some k =>
    let l := { l with keys := l.keys.filter (·.1 != l.flow) }
    return { (l.insertKey k).indicator 1 .value with keyAllowed := false }
  | none =>
    if !l.inFlow && !l.keyAllowed then refuse
    let l := if l.inFlow then l else l.openHere .blockMapping
    let l ← l.dropKey
    return { l.indicator 1 .value with keyAllowed := !l.inFlow }

def content (l : Lexer) (read : Cursor → Except Flaw (TokenKind × Cursor)) : Result := do
  let l ← l.saveKey
  let (kind, c) ← read l.cursor
  return { l.push kind l.cursor.mark c.mark with cursor := c, keyAllowed := false }

def anchorToken (make : List Char → TokenKind) (c : Cursor) : Except Flaw (TokenKind × Cursor) := do
  let (name, c) ← anchorName c
  return (make name, c)

def quotedToken (double : Bool) (c : Cursor) : Except Flaw (TokenKind × Cursor) := do
  let (text, c) ← quotedScalar double c
  return (.scalar text false, c)

def blockScalarToken (l : Lexer) (folded : Bool) : Result := do
  let l ← { l with keyAllowed := true }.dropKey
  let (text, c) ← blockScalar folded l.indent l.cursor.next
  return { l.push (.scalar (codes text) false) l.cursor.mark c.mark with cursor := c }

/-- A plain scalar. If it ends behind a line break, a key may start there. -/
def plainToken (l : Lexer) : Result := do
  let l ← l.saveKey
  let (text, c, broke) := plain l.inFlow (l.indent + 1) l.cursor
  return { l.push (.scalar (codes text) true) l.cursor.mark c.mark with
    cursor := c, keyAllowed := broke }

def startsPlain (l : Lexer) (c : Char) (following : Option Char) : Bool :=
  !(endsToken (some c) || "-?:,[]\x7b\x7d#&*!|>'\"%@\x60".toList.contains c) ||
    (!endsToken following && (c == '-' || (!l.inFlow && (c == '?' || c == ':'))))

def token (l : Lexer) : Result :=
  let c := l.cursor
  let blankFollows := endsToken c.next.peek
  match c.peek with
  | none => l.streamEnd
  | some x =>
    if x == '%' && c.column == 0 then l.directive
    else if x == '-' && c.column == 0 && c.standsAlone '-' then l.documentMark .documentStart
    else if x == '.' && c.column == 0 && c.standsAlone '.' then l.documentMark .documentEnd
    else if x == '[' then l.flowStart .flowSequence
    else if x == '{' then l.flowStart .flowMapping
    else if x == ']' then l.flowEnd .flowSequenceEnd
    else if x == '}' then l.flowEnd .flowMappingEnd
    else if x == ',' then l.flowEntry
    else if x == '-' && blankFollows then l.blockEntry
    else if x == '?' && (l.inFlow || blankFollows) then l.key
    else if x == ':' && (l.inFlow || blankFollows) then l.value
    else if x == '*' then l.content (anchorToken .alias)
    else if x == '&' then l.content (anchorToken .anchor)
    else if x == '!' then l.content tagToken
    else if x == '|' && !l.inFlow then l.blockScalarToken false
    else if x == '>' && !l.inFlow then l.blockScalarToken true
    else if x == '\'' then l.content (quotedToken false)
    else if x == '"' then l.content (quotedToken true)
    else if l.startsPlain x c.next.peek then l.plainToken
    else refuse

def read (l : Lexer) : Result := do
  let l := l.skipByteOrderMark
  let l ← (l.skipBlanks (l.cursor.size + 1)).dropStale
  (l.unwind l.column).token

def waits (l : Lexer) : Bool := l.keys.any (·.2.number == l.taken)

/-- Takes the tokens from the queue at which no key can start any more, and adds them to `out`, which
is in reverse. -/
def release : List Token → List Token → Lexer → List Token × Lexer
  | [], out, l => (out, { l with queue := [] })
  | t :: queue, out, l =>
    if l.waits then (out, { l with queue := t :: queue })
    else release queue (t :: out) { l with taken := l.taken + 1 }

/-- Reads tokens until the end, and gives those before a flaw together with it. -/
def readAll : (fuel : Nat) → List Token → Lexer → List Token × Option Flaw
  | 0, out, _ => (out.reverse, none)
  | fuel + 1, out, l =>
    match l.read with
    | .error e => (out.reverse, some e)
    | .ok l =>
      if l.finished then (out.reverse ++ l.queue, none)
      else match l.dropStale with
        | .error e => (out.reverse, some e)
        | .ok l =>
          let (out, l) := release l.queue out l
          readAll fuel out l

end Lexer

def tokens (text : List Char) : List Token × Option Flaw :=
  Lexer.readAll (text.length + 2) [] { cursor := { rest := text } }

end PenPlotter.Yaml
