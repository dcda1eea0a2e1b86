import PenPlotter.Yaml.Cursor
import PenPlotter.Number.Literal
/-!
# The text of scalars

Reading the three written forms of a scalar: plain, quoted and block. Line breaks within plain and
quoted scalars are folded: a single one is a space, and of several all but the first are kept.
-/
namespace PenPlotter.Yaml
open Text

def fold (first : Char) (further : List Char) : List Char :=
  if first != '\n' then first :: further
  else if further.isEmpty then [' '] else further

/-! ## Plain scalars -/

def isFlowIndicator (c : Char) : Bool :=
  c == ',' || c == '[' || c == ']' || c == '{' || c == '}'

/-- Whether a plain scalar ends before a character, given what follows it. -/
def endsPlain (flow : Bool) (c : Char) (following : Option Char) : Bool :=
  endsToken (some c) ||
    (c == ':' && (endsToken following || (flow && following.any isFlowIndicator))) ||
    (flow && (isFlowIndicator c || c == '?'))

/-- The characters of a plain scalar up to the next blank or indicator, added to those of `seen`,
which are in reverse. -/
def plainRun (flow : Bool) (seen : List Char) : List Char → List Char
  | [] => seen
  | c :: cs => if endsPlain flow c cs.head? then seen else plainRun flow (c :: seen) cs

/-- The line breaks behind the first one, or nothing where a mark between documents follows. -/
def plainBreaks (seen : List Char) : (fuel : Nat) → Cursor → Option (List Char) × Cursor
  | 0, c => (some seen.reverse, c)
  | fuel + 1, c =>
    if c.peek == some ' ' then plainBreaks seen fuel c.next
    else match c.lineBreak with
      | none => (some seen.reverse, c)
      | some (b, c) =>
        if c.atSeparator then (none, c) else plainBreaks (b :: seen) fuel c

/-- What stands between two runs of a plain scalar, whether it broke the line, and the cursor behind
it. -/
def plainGap (c : Cursor) : List Char × Bool × Cursor :=
  let (blanks, c) := c.span (· == ' ')
  match c.lineBreak with
  | none => (blanks, false, c)
  | some (b, c) =>
    if c.atSeparator then ([], true, c)
    else match plainBreaks [] (c.size + 1) c with
      | (some further, c) => (fold b further, true, c)
      | (none, c) => ([], true, c)

/-- Runs and gaps of a plain scalar: its text in reverse, the cursor, and whether the last gap broke
the line. -/
def plainText (flow : Bool) (indent : Int) :
    (fuel : Nat) → (seen gap : List Char) → Bool → Cursor → List Char × Cursor × Bool
  | 0, seen, _, broke, c => (seen, c, broke)
  | fuel + 1, seen, gap, broke, c =>
    let run := plainRun flow [] c.rest
    if run.isEmpty || c.peek == some '#' then (seen, c, broke)
    else
      let seen := run ++ (gap.reverse ++ seen)
      let (gap, broke, c) := plainGap (c.skip run.length)
      if gap.isEmpty || c.peek == some '#' || (!flow && decide ((c.column : Int) < indent)) then
        (seen, c, broke)
      else plainText flow indent fuel seen gap broke c

def plain (flow : Bool) (indent : Int) (c : Cursor) : List Char × Cursor × Bool :=
  let (seen, c, broke) := plainText flow indent (c.size + 1) [] [] false c
  (seen.reverse, c, broke)

/-! ## Quoted scalars -/

def quotedBreaks (seen : List Char) : (fuel : Nat) → Cursor → Except Flaw (List Char × Cursor)
  | 0, c => .ok (seen.reverse, c)
  | fuel + 1, c =>
    if c.atSeparator then .error (.malformed .tokens)
    else
      let c := c.skipWhile isSpaceOrTab
      match c.lineBreak with
      | some (b, c) => quotedBreaks (b :: seen) fuel c
      | none => .ok (seen.reverse, c)

def escapes : List (Char × Char) :=
  [('0', '\x00'), ('a', '\x07'), ('b', '\x08'), ('t', '\t'), ('\t', '\t'), ('n', '\n'),
    ('v', '\x0b'), ('f', '\x0c'), ('r', '\r'), ('e', '\x1b'), (' ', ' '), ('"', '"'),
    ('\\', '\\'), ('/', '/'), ('N', '\x85'), ('_', '\xa0'), ('L', '\u2028'), ('P', '\u2029')]

/-- How many digits of a code point follow a letter behind a backslash. -/
def codeLength? (c : Char) : Option Nat :=
  if c = 'x' then some 2 else if c = 'u' then some 4 else if c = 'U' then some 8 else none

def codePoint (n : Nat) : Except Flaw Code :=
  if 0x7fffffff < n then .error (.fault .codePointTooWide)
  else if 0x10ffff < n then .error (.fault .codePointTooLarge)
  else .ok (Code.ofNat n)

def escape (c : Cursor) : Except Flaw (List Code × Cursor) :=
  match c.peek with
  | none => .error (.malformed .tokens)
  | some x =>
    match escapes.lookup x, codeLength? x with
    | some r, _ => .ok ([.char r], c.next)
    | none, some n => do
      let digits := c.next.rest.take n
      if digits.length < n ∨ !digits.all (Literal.isDigit 16) then
        throw (.malformed .tokens)
      return ([← codePoint (Literal.value 16 digits)], c.skip (n + 1))
    | none, none =>
      match c.lineBreak with
      | some (_, c) => do
        let (breaks, c) ← quotedBreaks [] (c.size + 1) c
        return (codes breaks, c)
      | none => .error (.malformed .tokens)

/-- The text up to the closing quote, added to `seen`, which is in reverse. -/
def quotedText (double : Bool) :
    (fuel : Nat) → List Code → Cursor → Except Flaw (List Code × Cursor)
  | 0, _, _ => .error (.malformed .tokens)
  | fuel + 1, seen, c =>
    match c.rest with
    | [] => .error (.malformed .tokens)
    | x :: xs =>
      if endsToken (some x) then
        let (blanks, c) := c.span isSpaceOrTab
        match c.lineBreak with
        | some (b, c) => do
          let (further, c) ← quotedBreaks [] (c.size + 1) c
          quotedText double fuel ((codes (fold b further)).reverse ++ seen) c
        | none => quotedText double fuel ((codes blanks).reverse ++ seen) c
      else if double && x == '\\' then do
        let (r, c) ← escape c.next
        quotedText double fuel (r.reverse ++ seen) c
      else if x == (if double then '"' else '\'') then
        if !double && xs.head? == some '\'' then 
          quotedText double fuel (.char '\'' :: seen) (c.skip 2)
        else .ok (seen.reverse, c.next)
      else quotedText double fuel (.char x :: seen) c.next

def quotedScalar (double : Bool) (c : Cursor) : Except Flaw (List Code × Cursor) :=
  quotedText double (c.size + 1) [] c.next

/-! ## Block scalars -/

/-- What becomes of the line breaks at the end of a block scalar. -/
inductive Chomping where
  | strip
  | clip
  | keep
  deriving DecidableEq, Repr

def chomping? (c : Cursor) : Option (Chomping × Cursor) :=
  match c.peek with
  | some '+' => some (.keep, c.next)
  | some '-' => some (.strip, c.next)
  | _ => none

def increment? (c : Cursor) : Except Flaw (Option Nat × Cursor) :=
  match c.peek with
  | some x =>
    if x == '0' then .error (.malformed .tokens)
    else if x.isDigit then .ok (Literal.digit? x, c.next)
    else .ok (none, c)
  | none => .ok (none, c)

/-- The indicators of a block scalar, in either order, and the rest of their line. -/
def blockHeader (c : Cursor) : Except Flaw (Chomping × Option Nat × Cursor) := do
  let (chomping, increment, c) ← match chomping? c with
    | some (chomping, c) => do
      let (increment, c) ← increment? c
      pure (chomping, increment, c)
    | none => do
      let (increment, c) ← increment? c
      match increment, chomping? c with
      | some n, some (chomping, c) => pure (chomping, some n, c)
      | n, _ => pure (.clip, n, c)
  if !endsWord c.peek then throw (.malformed .tokens)
  return (chomping, increment, ← c.restOfLine)

/-- Leading empty lines, and the widest column reached in them. -/
def leadingLines (seen : List Char) (widest : Nat) :
    (fuel : Nat) → Cursor → List Char × Nat × Cursor
  | 0, c => (seen.reverse, widest, c)
  | fuel + 1, c =>
    if c.peek == some ' ' then leadingLines seen (max widest c.next.column) fuel c.next
    else match c.lineBreak with
      | some (b, c) => leadingLines (b :: seen) widest fuel c
      | none => (seen.reverse, widest, c)

def skipIndent (indent : Nat) : (fuel : Nat) → Cursor → Cursor
  | 0, c => c
  | fuel + 1, c =>
    if c.column < indent ∧ c.peek = some ' ' then skipIndent indent fuel c.next else c

def emptyLines (indent : Nat) (seen : List Char) : (fuel : Nat) → Cursor → List Char × Cursor
  | 0, c => (seen.reverse, c)
  | fuel + 1, c =>
    let c := skipIndent indent indent c
    match c.lineBreak with
    | some (b, c) => emptyLines indent (b :: seen) fuel c
    | none => (seen.reverse, c)

def inBlock (indent : Nat) (c : Cursor) : Bool := c.column == indent && !c.rest.isEmpty

def startsBlank (c : Cursor) : Bool := c.peek.any isSpaceOrTab

def joint (folded : Bool) (ending : Option Char) (further : List Char) (blank : Bool) : List Char :=
  if folded && ending == some '\n' && !blank then (if further.isEmpty then [' '] else [])
  else ending.toList

/-- The lines of a block scalar: its text in reverse, the last line's break, the breaks behind it,
and the cursor. -/
def blockLines (folded : Bool) (indent : Nat) :
    (fuel : Nat) → (seen : List Char) → Option Char → (further : List Char) → Cursor →
      List Char × Option Char × List Char × Cursor
  | 0, seen, ending, further, c => (seen, ending, further, c)
  | fuel + 1, seen, ending, further, c =>
    if !inBlock indent c then (seen, ending, further, c)
    else
      let blank := startsBlank c
      let (line, c) := c.span (fun x => !isBreak x)
      let seen := line.reverse ++ (further.reverse ++ seen)
      let (ending, c) := match c.lineBreak with
        | some (b, c) => (some b, c)
        | none => (none, c)
      let (further, c) := emptyLines indent [] (c.size + 1) c
      if inBlock indent c then
        let join := joint folded ending further (blank || startsBlank c)
        blockLines folded indent fuel (join.reverse ++ seen) ending further c
      else (seen, ending, further, c)

/-- A block scalar within a block that is indented by `indent`; the cursor is behind its style. -/
def blockScalar (folded : Bool) (indent : Int) (c : Cursor) : Except Flaw (List Char × Cursor) := do
  let (chomping, increment, c) ← blockHeader c
  let least := (max 1 (indent + 1)).toNat
  let fuel := c.size + 1
  let (further, column, c) := match increment with
    | none =>
      let (further, widest, c) := leadingLines [] 0 fuel c
      (further, max least widest, c)
    | some n =>
      let column := least + n - 1
      let (further, c) := emptyLines column [] fuel c
      (further, column, c)
  let (seen, ending, further, c) := blockLines folded column fuel [] none further c
  let tail := match chomping with
    | .strip => []
    | .clip => ending.toList
    | .keep => ending.toList ++ further
  return (seen.reverse ++ tail, c)

end PenPlotter.Yaml
