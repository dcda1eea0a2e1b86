import PenPlotter.Failure
/-!
# Delivery

Frames go to a sink one at a time. A sink answers a write with the number of bytes that it took, or
with nothing when it took all; of a frame that it took in part the rest is offered again. A frame
that cannot be rendered ends the delivery before any byte of it is offered.
-/
namespace PenPlotter
open Text

/-- A place to write bytes to, with a state of its own. -/
abbrev Sink (σ : Type) := Bytes → σ → Except Failure (Option Int) × σ

/-- Offers bytes until the sink has taken them all. A sink that takes nothing ends it. -/
def offer {σ : Type} (write : Sink σ) (data : Bytes) (s : σ) : Except Failure Unit × σ :=
  if hd : data = [] then (.ok (), s)
  else
    match write data s with
    | (.error e, s) => (.error e, s)
    | (.ok none, s) => (.ok (), s)
    | (.ok (some n), s) =>
      if hn : n ≤ 0 then (.error (.stalled data.length), s)
      else
        have : (data.drop n.toNat).length < data.length := by
          have := List.length_pos_iff.mpr hd
          simp only [List.length_drop]
          omega
        offer write (data.drop n.toNat) s
termination_by data.length

/-- Offers frame after frame, and stops at the first that fails. -/
def deliver {σ : Type} (write : Sink σ) : List (Except Fault Bytes) → σ → Except Failure Unit × σ
  | [], s => (.ok (), s)
  | .error f :: _, s => (.error (.fault f), s)
  | .ok data :: rest, s =>
    match offer write data s with
    | (.error e, s) => (.error e, s)
    | (.ok (), s) => deliver write rest s

/-- A sink that takes and keeps all that it is offered. -/
def keeping : Sink Bytes := fun data s => (.ok (some data.length), s ++ data)

def kept {α : Type} (r : Except Failure α × Bytes) : Except Failure Bytes := r.1.map fun _ => r.2

inductive Reply where
  | count (n : Int)
  | all
  | error (e : DeviceError)
  deriving DecidableEq, Repr

def Reply.result : Reply → Except Failure (Option Int)
  | .count n => .ok (some n)
  | .all => .ok none
  | .error e => .error (.device e)

/-- The next of the replies that a device has been given; after them it takes all that is offered. -/
def Reply.next (data : Bytes) : List Reply → Reply × List Reply
  | [] => (.count data.length, [])
  | r :: rest => (r, rest)

end PenPlotter
