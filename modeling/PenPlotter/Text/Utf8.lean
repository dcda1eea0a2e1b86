/-!
# Bytes to text

Strict UTF-8. Decoding stops at the first byte sequence that no text has and says where it starts,
how many bytes belong to it and what is wrong with it.
-/
namespace PenPlotter.Text

abbrev Bytes := List UInt8

namespace Utf8

inductive Flaw where
  /-- A byte that begins no character. -/
  | start
  /-- A byte that does not continue the character begun before it. -/
  | continuation
  /-- The bytes end within a character. -/
  | ending
  deriving DecidableEq, Repr

structure Failure where
  flaw : Flaw
  first : UInt8
  position : Nat
  size : Nat
  deriving DecidableEq, Repr

/-- What a first byte promises: the bytes that follow, the least and greatest of the second one,
and the bits that the first byte gives. -/
def lead? (b : UInt8) : Option (Nat × Nat × Nat × Nat) :=
  let n := b.toNat
  if n < 0x80 then some (0, 0, 0, n)
  else if n < 0xc2 then none
  else if n < 0xe0 then some (1, 0x80, 0xbf, n - 0xc0)
  else if n = 0xe0 then some (2, 0xa0, 0xbf, 0)
  else if n = 0xed then some (2, 0x80, 0x9f, n - 0xe0)
  else if n < 0xf0 then some (2, 0x80, 0xbf, n - 0xe0)
  else if n = 0xf0 then some (3, 0x90, 0xbf, 0)
  else if n < 0xf4 then some (3, 0x80, 0xbf, n - 0xf0)
  else if n = 0xf4 then some (3, 0x80, 0x8f, 4)
  else none

/-- The bytes of one character behind its first one: how many are there before the sequence goes
wrong, or the finished code point. -/
def tail (low high code : Nat) (seen : Nat) : (owed : Nat) → Bytes → Except (Flaw × Nat) Nat
  | 0, _ => .ok code
  | _ + 1, [] => .error (.ending, seen)
  | owed + 1, b :: rest =>
    if low ≤ b.toNat ∧ b.toNat ≤ high then
      tail 0x80 0xbf (code * 64 + (b.toNat - 0x80)) (seen + 1) owed rest
    else .error (.continuation, seen)

/-- Decodes from `position` on; `skip` bytes belong to the character before. -/
def decodeFrom (position skip : Nat) : Bytes → Except Failure (List Char)
  | [] => .ok []
  | b :: rest =>
    match skip with
    | s + 1 => decodeFrom (position + 1) s rest
    | 0 =>
      match lead? b with
      | none => .error ⟨.start, b, position, 1⟩
      | some (owed, low, high, code) =>
        match tail low high code 1 owed rest with
        | .error (flaw, size) => .error ⟨flaw, b, position, size⟩
        | .ok n => (decodeFrom (position + 1) owed rest).map (Char.ofNat n :: ·)

def decode (bytes : Bytes) : Except Failure (List Char) := decodeFrom 0 0 bytes

def encode (text : List Char) : Bytes := text.flatMap String.utf8EncodeChar

end Utf8

/-- A return, alone or before a newline, is one newline. -/
def unifyNewlines : List Char → List Char
  | '\r' :: '\n' :: rest => '\n' :: unifyNewlines rest
  | '\r' :: rest => '\n' :: unifyNewlines rest
  | c :: rest => c :: unifyNewlines rest
  | [] => []

end PenPlotter.Text
