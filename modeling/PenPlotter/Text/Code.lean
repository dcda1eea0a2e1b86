/-!
# Code points

The code points of a text. A text that was written with escapes may hold halves of surrogate pairs,
which are no characters; all other text is a list of characters.
-/
namespace PenPlotter.Text

inductive Code where
  | char (c : Char)
  /-- Half of a surrogate pair, counted from the first one. -/
  | half (n : Fin 0x800)
  deriving DecidableEq, Repr

namespace Code

/-- The number of the first half of surrogate pairs. -/
def firstHalf : Nat := 0xd800

def toNat : Code → Nat
  | char c => c.toNat
  | half n => firstHalf + n

def ofNat (n : Nat) : Code :=
  if h : firstHalf ≤ n ∧ n < firstHalf + 0x800 then half ⟨n - firstHalf, by omega⟩
  else char (Char.ofNat n)

def char? : Code → Option Char
  | char c => some c
  | half _ => none

end Code

def codes (s : List Char) : List Code := s.map .char

def chars? : List Code → Option (List Char)
  | [] => some []
  | .char c :: rest => (chars? rest).map (c :: ·)
  | .half _ :: _ => none

/-! ## Parts of a text, and the order of texts -/

def splitAt {α : Type} [DecidableEq α] (separator : α) : List α → List (List α)
  | [] => [[]]
  | c :: cs =>
    match splitAt separator cs with
    | part :: parts => if c = separator then [] :: part :: parts else (c :: part) :: parts
    | [] => [[c]]

/-- Lists in the order of their members, such as texts in that of their characters. -/
def inOrder {α : Type} [LT α] [DecidableLT α] [BEq α] : List α → List α → Bool
  | [], _ => true
  | _ :: _, [] => false
  | a :: as, b :: bs => a < b || (a == b && inOrder as bs)

def sortBy {α : Type} (name : α → String) (xs : List α) : List α :=
  xs.mergeSort fun a b => inOrder (name a).toList (name b).toList

/-! ## Ranges of code points

Membership in a table of ranges in ascending order, by halving. -/

/-- Whether the range that may hold `n` does, by halving the part of the table that is left. -/
def inPart (table : Array (Nat × Nat)) (n : Nat) (low size : Nat) : Bool :=
  if _h : size = 0 then false
  else
    let middle := low + size / 2
    match table[middle]? with
    | none => false
    | some (first, last) =>
      if n < first then inPart table n low (size / 2)
      else if last < n then inPart table n (middle + 1) (size - size / 2 - 1)
      else true
termination_by size
decreasing_by all_goals omega

def inRanges (table : Array (Nat × Nat)) (n : Nat) : Bool := inPart table n 0 table.size

end PenPlotter.Text
