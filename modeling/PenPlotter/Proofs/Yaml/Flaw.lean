import PenPlotter.Yaml.Cursor
/-! # What steps of reading yield

A step of reading a document gives a result, finds the text malformed or a key twice, or meets a fault
of a single value. `Yields P Q` says of a step that its faults satisfy `P` and its results `Q`; what
holds of two steps so holds of one after the other.
-/
namespace PenPlotter.Yaml

variable {α β : Type} {P : Fault → Prop} {Q : α → Prop} {R : β → Prop}

inductive Yields (P : Fault → Prop) (Q : α → Prop) : Except Flaw α → Prop
  | ok {a : α} (h : Q a) : Yields P Q (.ok a)
  | malformed {stage : Stage} : Yields P Q (.error (.malformed stage))
  | duplicate {key : List Text.Code} {mark : Mark} : Yields P Q (.error (.duplicateKey key mark))
  | fault {f : Fault} (h : P f) : Yields P Q (.error (.fault f))

namespace Yields

theorem self (x : Except Flaw α) : Yields (fun f => x = .error (.fault f)) (fun a => x = .ok a) x := by
  cases x with
  | ok a => exact .ok rfl
  | error e =>
    cases e with
    | malformed stage => exact .malformed
    | duplicateKey key mark => exact .duplicate
    | fault f => exact .fault rfl

theorem error (e : Flaw) : Yields (fun _ => True) Q (.error e) := by
  cases e with
  | malformed stage => exact .malformed
  | duplicateKey key mark => exact .duplicate
  | fault f => exact .fault trivial

theorem bind {x : Except Flaw α} {f : α → Except Flaw β} (h : Yields P Q x)
    (hf : ∀ a, Q a → Yields P R (f a)) : Yields P R (x >>= f) := by
  cases h with
  | ok ha => exact hf _ ha
  | malformed => exact .malformed
  | duplicate => exact .duplicate
  | fault hp => exact .fault hp

theorem imp {Q' : α → Prop} {x : Except Flaw α} (h : Yields P Q x) (hq : ∀ a, Q a → Q' a) :
    Yields P Q' x := by
  cases h with
  | ok ha => exact .ok (hq _ ha)
  | malformed => exact .malformed
  | duplicate => exact .duplicate
  | fault hp => exact .fault hp

theorem mono {P' : Fault → Prop} {x : Except Flaw α} (h : Yields P Q x) (hp : ∀ f, P f → P' f) :
    Yields P' Q x := by
  cases h with
  | ok ha => exact .ok ha
  | malformed => exact .malformed
  | duplicate => exact .duplicate
  | fault hf => exact .fault (hp _ hf)

theorem ite {c : Prop} [Decidable c] {x y : Except Flaw α} (hx : Yields P Q x) (hy : Yields P Q y) :
    Yields P Q (if c then x else y) := by
  split
  · exact hx
  · exact hy

theorem foldlM {f : α → β → Except Flaw α} (bs : List β)
    (hf : ∀ a, ∀ b ∈ bs, Q a → Yields P Q (f a b)) {a : α} (ha : Q a) :
    Yields P Q (bs.foldlM f a) := by
  induction bs generalizing a with
  | nil => exact .ok ha
  | cons b bs ih =>
    rw [List.foldlM_cons]
    refine (hf a b List.mem_cons_self ha).bind fun a' ha' => ?_
    exact ih (fun a b hb => hf a b (List.mem_cons_of_mem _ hb)) ha'

theorem result {x : Except Flaw α} (h : Yields P Q x) {a : α} (hx : x = .ok a) : Q a := by
  cases h with
  | ok ha =>
    cases hx
    exact ha
  | _ => cases hx

theorem reason {x : Except Flaw α} (h : Yields P Q x) {f : Fault} (hx : x = .error (.fault f)) :
    P f := by
  cases h with
  | fault hp =>
    cases hx
    exact hp
  | _ => cases hx

end Yields

end PenPlotter.Yaml
