import Mathlib.Data.List.Nodup
import PenPlotter.Proofs.Text.Order
import PenPlotter.World.Document
/-! # The order in which files are found

What is at a place, what a folder holds and what a document says do not depend on the order in which the
files of a world are listed, as long as there is one thing at each place. The names in a folder come in the
strict order of their characters.
-/
namespace PenPlotter
open Text

theorem lookup_eq_some_iff_mem {κ α : Type} [BEq κ] [LawfulBEq κ] {l : List (κ × α)}
    (hl : (l.map (·.1)).Nodup) {k : κ} {a : α} : l.lookup k = some a ↔ (k, a) ∈ l := by
  induction l with
  | nil => simp
  | cons e l ih =>
    rcases e with ⟨key, b⟩
    rw [List.map_cons, List.nodup_cons] at hl
    rw [List.lookup_cons, List.mem_cons, Prod.mk.injEq]
    cases hk : k == key with
    | true =>
      have hkey : k = key := eq_of_beq hk
      subst hkey
      have hrest : (k, a) ∉ l := fun hmem => hl.1 (List.mem_map.mpr ⟨(k, a), hmem, rfl⟩)
      simp [hrest, eq_comm]
    | false =>
      have hkey : k ≠ key := ne_of_beq_false hk
      simp [hkey, ih hl.2]

namespace World
variable {w : World} {listing : List (List String × Entry)}

def nameIn? (here place : List String) : Option String :=
  if place.length = here.length + 1 ∧ place.dropLast = here then place.getLast? else none

theorem nameIn?_eq_some_iff {here place : List String} {name : String} :
    nameIn? here place = some name ↔ place = here ++ [name] := by
  constructor
  · intro h
    rw [nameIn?, Option.ite_none_right_eq_some] at h
    obtain ⟨⟨-, hhere⟩, hlast⟩ := h
    rw [← hhere, List.dropLast_append_getLast? name hlast]
  · rintro rfl
    simp [nameIn?]

theorem namesAt_eq (here : List String) :
    w.namesAt here = sortBy (fun name => name) ((w.entries.map (·.1)).filterMap (nameIn? here)) := by
  rw [List.filterMap_map]
  rfl

/-- A folder holds the names of what is right below it. -/
theorem mem_namesAt {here : List String} {name : String} :
    name ∈ w.namesAt here ↔ (w.entry? (here ++ [name])).isSome = true := by
  rw [namesAt_eq, mem_sortBy, List.mem_filterMap, entry?, if_neg (by simp)]
  simp only [nameIn?_eq_some_iff, exists_eq_right]
  rw [List.lookup_isSome_iff]
  simp

theorem namesAt_pairwise (hw : (w.entries.map (·.1)).Nodup) (here : List String) :
    (w.namesAt here).Pairwise Before := by
  rw [namesAt_eq]
  refine sortBy_pairwise ?_
  rw [List.map_id']
  refine List.Nodup.filterMap (fun a b name ha hb => ?_) hw
  rw [Option.mem_def, nameIn?_eq_some_iff] at ha hb
  rw [ha, hb]

def Holds (w : World) (p : PathName) (name : String) : Prop :=
  ∃ here, w.locate p p.parts = .ok here ∧ (w.entry? (here ++ [name])).isSome = true

/-- A path that is not too long has its names listed, in their order. -/
theorem names_spec (hw : (w.entries.map (·.1)).Nodup) {p : PathName}
    (hp : w.locate p p.parts ≠ .error .nameTooLong) :
    ∃ names, w.names p = .ok names ∧ names.Pairwise Before ∧
      ∀ name, name ∈ names ↔ w.Holds p name := by
  rw [names]
  cases hlocate : w.locate p p.parts with
  | ok here =>
    refine ⟨w.namesAt here, rfl, namesAt_pairwise hw here, fun name => ?_⟩
    rw [mem_namesAt, Holds, hlocate]
    simp
  | error problem =>
    refine ⟨[], ?_, .nil, fun name => ?_⟩
    · cases problem <;> first | rfl | exact absurd hlocate hp
    · rw [Holds, hlocate]
      simp

section Relisted
variable (hl : listing.Perm w.entries) (hw : (w.entries.map (·.1)).Nodup)
include hl hw

theorem entry?_relisted (place : List String) :
    World.entry? { w with entries := listing } place = w.entry? place := by
  have hlisting : (listing.map (·.1)).Nodup := (hl.map _).nodup_iff.mpr hw
  have hlookup : listing.lookup place = w.entries.lookup place := by
    refine Option.ext fun e => ?_
    rw [lookup_eq_some_iff_mem hlisting, lookup_eq_some_iff_mem hw, hl.mem_iff]
  rw [World.entry?, World.entry?, hlookup]

theorem namesAt_relisted (here : List String) :
    ({ w with entries := listing } : World).namesAt here = w.namesAt here := by
  have hlisting : (listing.map (·.1)).Nodup := (hl.map _).nodup_iff.mpr hw
  refine eq_of_before (namesAt_pairwise hlisting here)
    (namesAt_pairwise hw here) fun name => ?_
  rw [mem_namesAt, mem_namesAt, entry?_relisted hl hw]

theorem follow_relisted (here parts : List String) :
    ({ w with entries := listing } : World).follow here parts = w.follow here parts := by
  induction parts generalizing here with
  | nil => rfl
  | cons part rest ih => simp only [follow, entry?_relisted hl hw, ih]

theorem locate_relisted (p : PathName) (parts : List String) :
    ({ w with entries := listing } : World).locate p parts = w.locate p parts := by
  simp only [locate, follow_relisted hl hw]
  rfl

theorem read_relisted (p : PathName) :
    ({ w with entries := listing } : World).read p = w.read p := by
  simp only [read, locate_relisted hl hw, entry?_relisted hl hw]

theorem names_relisted (p : PathName) :
    ({ w with entries := listing } : World).names p = w.names p := by
  simp only [names, locate_relisted hl hw, namesAt_relisted hl hw]

theorem document_relisted (role : DocumentRole) (p : PathName) :
    ({ w with entries := listing } : World).document role p = w.document role p := by
  simp only [document, read_relisted hl hw]

end Relisted

end World

end PenPlotter
