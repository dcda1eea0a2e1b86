import PenPlotter.Number.Literal
import PenPlotter.Yaml.Cursor
/-!
# Names, tags and directives

Reading what stands in front of a node or a document: anchors and aliases, tags, and directives.
-/
namespace PenPlotter.Yaml
open Text

def isWordChar (c : Char) : Bool := c.isAlphanum || c == '-' || c == '_'

def word (c : Cursor) : Except Flaw (List Char × Cursor) :=
  let (name, c) := c.span isWordChar
  if name.isEmpty then .error (.malformed .tokens) else .ok (name, c)

/-- The name of an anchor or an alias; the cursor is at its indicator. -/
def anchorName (c : Cursor) : Except Flaw (List Char × Cursor) := do
  let (name, c) ← word c.next
  if !(endsToken c.peek || c.peek.any ("?:,]\x7d%@\x60".toList.contains ·)) then
    throw (.malformed .tokens)
  return (name, c)

/-! ## Tags -/

/-- The characters of a tag besides letters and digits. -/
def isUriChar (c : Char) : Bool :=
  c.isAlphanum || "-;/?:@&=+$,_.!~*'()[]%".toList.contains c

def uriBytes (seen : Bytes) : (fuel : Nat) → Cursor → Except Flaw (Bytes × Cursor)
  | 0, c => .ok (seen.reverse, c)
  | fuel + 1, c =>
    match c.rest with
    | '%' :: digits =>
      match digits.take 2 with
      | [a, b] =>
        if Literal.isDigit 16 a && Literal.isDigit 16 b then
          uriBytes (UInt8.ofNat (Literal.value 16 [a, b]) :: seen) fuel (c.skip 3)
        else .error (.malformed .tokens)
      | _ => .error (.malformed .tokens)
    | _ => .ok (seen.reverse, c)

def uriText (seen : List Char) : (fuel : Nat) → Cursor → Except Flaw (List Char × Cursor)
  | 0, c => .ok (seen.reverse, c)
  | fuel + 1, c =>
    match c.peek with
    | some x =>
      if x == '%' then do
        let (bytes, c) ← uriBytes [] (c.size + 1) c
        match Utf8.decode bytes with
        | .ok text => uriText (text.reverse ++ seen) fuel c
        | .error _ => .error (.malformed .tokens)
      else if isUriChar x then uriText (x :: seen) fuel c.next
      else .ok (seen.reverse, c)
    | none => .ok (seen.reverse, c)

def tagUri (c : Cursor) : Except Flaw (List Char × Cursor) := do
  let (text, c) ← uriText [] (c.size + 1) c
  if text.isEmpty then throw (.malformed .tokens)
  return (text, c)

/-- The handle of a tag: one exclamation mark, or two with a word between them. -/
def tagHandle (c : Cursor) : Except Flaw (List Char × Cursor) :=
  if c.peek != some '!' then .error (.malformed .tokens)
  else if c.next.peek == some ' ' then .ok (['!'], c.next)
  else
    let (name, c) := c.next.span isWordChar
    if c.peek == some '!' then .ok ('!' :: name ++ ['!'], c.next) else .error (.malformed .tokens)

def tagToken (c : Cursor) : Except Flaw (TokenKind × Cursor) := do
  let following := c.next.peek
  let (handle, suffix, c) ←
    if following == some '<' then do
      let (uri, c) ← tagUri (c.skip 2)
      if c.peek != some '>' then throw (.malformed .tokens)
      pure (none, uri, c.next)
    else if endsToken following then pure (none, ['!'], c.next)
    else do
      let word := c.next.rest.takeWhile fun x => !endsWord (some x)
      let (handle, c) ← if word.contains '!' then tagHandle c else pure (['!'], c.next)
      let (uri, c) ← tagUri c
      pure (some handle, uri, c)
  if !endsWord c.peek then throw (.malformed .tokens)
  return (.tag handle suffix, c)

/-! ## Directives -/

def skipSpaces (c : Cursor) : Cursor := c.skipWhile (· == ' ')

def versionNumber (c : Cursor) : Except Flaw (Nat × Cursor) := do
  let (digits, c) := c.span Char.isDigit
  if digits.isEmpty then throw (.malformed .tokens)
  let n ← (Literal.int 10 (codes digits)).mapError .fault
  return (n.toNat, c)

def versionDirective (c : Cursor) : Except Flaw (TokenKind × Cursor) := do
  let (major, c) ← versionNumber (skipSpaces c)
  if c.peek != some '.' then throw (.malformed .tokens)
  let (_, c) ← versionNumber c.next
  if !endsWord c.peek then throw (.malformed .tokens)
  return (.version major, c)

def handleDirective (c : Cursor) : Except Flaw (TokenKind × Cursor) := do
  let (handle, c) ← tagHandle (skipSpaces c)
  if c.peek != some ' ' then throw (.malformed .tokens)
  let (expansion, c) ← tagUri (skipSpaces c)
  if !endsWord c.peek then throw (.malformed .tokens)
  return (.handle handle expansion, c)

def directiveToken (c : Cursor) : Except Flaw (TokenKind × Cursor) := do
  let (name, c) ← word c.next
  if !endsWord c.peek then throw (.malformed .tokens)
  let (kind, c) ←
    if name == "YAML".toList then versionDirective c
    else if name == "TAG".toList then handleDirective c
    else pure (.otherDirective, c.skipWhile fun x => !isBreak x)
  return (kind, ← c.restOfLine)

end PenPlotter.Yaml
