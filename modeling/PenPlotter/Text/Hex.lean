import PenPlotter.Text.Quoted
import PenPlotter.Text.Utf8
/-!
# Bytes in letters

Hexadecimal digits are written in lower case, two a byte; reading takes both cases and nothing else. In
Base64, characters outside the alphabet are skipped, and reading stops once a group of four is filled up
with padding. A group that is left open is an error.
-/
namespace PenPlotter.Text.Hex

def encode (bytes : Bytes) : List Char :=
  bytes.flatMap fun b => [hexDigit (b.toNat / 16), hexDigit (b.toNat % 16)]

def digit? (c : Char) : Option Nat :=
  let n := c.toNat
  if 48 ≤ n ∧ n ≤ 57 then some (n - 48)
  else if 97 ≤ n ∧ n ≤ 102 then some (n - 87)
  else if 65 ≤ n ∧ n ≤ 70 then some (n - 55)
  else none

def decode? : List Char → Option Bytes
  | [] => some []
  | [_] => none
  | a :: b :: rest =>
    match digit? a, digit? b, decode? rest with
    | some x, some y, some tail => some (UInt8.ofNat (x * 16 + y) :: tail)
    | _, _, _ => none

end PenPlotter.Text.Hex

namespace PenPlotter.Text.Base64

def value? (c : Char) : Option Nat :=
  let n := c.toNat
  if 65 ≤ n ∧ n ≤ 90 then some (n - 65)
  else if 97 ≤ n ∧ n ≤ 122 then some (n - 71)
  else if 48 ≤ n ∧ n ≤ 57 then some (n + 4)
  else if c = '+' then some 62
  else if c = '/' then some 63
  else none

/-- Reads on with `place` characters of the group taken, `left` their bits not yet given out, and
`pads` paddings since the last of them. -/
def decodeFrom (place left pads : Nat) : List Char → Option Bytes
  | [] => if place = 0 then some [] else none
  | c :: rest =>
    if c = '=' then
      if 2 ≤ place then
        if 4 ≤ place + (pads + 1) then some [] else decodeFrom place left (pads + 1) rest
      else decodeFrom place left pads rest
    else match value? c with
      | none => decodeFrom place left pads rest
      | some v =>
        match place with
        | 0 => decodeFrom 1 v 0 rest
        | 1 => (decodeFrom 2 (v % 16) 0 rest).map (UInt8.ofNat (left * 4 + v / 16) :: ·)
        | 2 => (decodeFrom 3 (v % 4) 0 rest).map (UInt8.ofNat (left * 16 + v / 4) :: ·)
        | _ => (decodeFrom 0 0 0 rest).map (UInt8.ofNat (left * 64 + v) :: ·)

def decode? (s : List Char) : Option Bytes := decodeFrom 0 0 0 s

end PenPlotter.Text.Base64
