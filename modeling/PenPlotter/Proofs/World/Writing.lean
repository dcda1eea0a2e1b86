import PenPlotter.Proofs.Result
import PenPlotter.World.Files
/-! # Written files

Writing puts a file at the place that a name leads to and leaves all else as it was. A folder is never
written over, so every name leads where it led before, and what is read under the name is what was written.
-/
namespace PenPlotter.World
open Text

variable {w w' : World} {p : PathName} {here place : List String} {content : Bytes}

/-! ## What is at a place -/

theorem entry?_set_self (h : here ≠ []) (w : World) (e : Entry) :
    World.entry? (w.set here e) here = some e := by
  unfold entry?
  rw [if_neg (by simpa using h)]
  exact List.lookup_cons_self

theorem lookup_filter_of_ne {κ α : Type} [BEq κ] [LawfulBEq κ] {k k' : κ} (h : k' ≠ k)
    (l : List (κ × α)) : (l.filter (·.1 != k)).lookup k' = l.lookup k' := by
  induction l with
  | nil => rfl
  | cons e l ih =>
    rcases e with ⟨key, a⟩
    by_cases hkey : key = k
    · subst hkey
      rw [List.filter_cons_of_neg (by simp), ih, List.lookup_cons, beq_false_of_ne h]
    · rw [List.filter_cons_of_pos (by simpa using hkey), List.lookup_cons, List.lookup_cons, ih]

theorem entry?_set_of_ne (h : place ≠ here) (w : World) (e : Entry) :
    World.entry? (w.set here e) place = w.entry? place := by
  have hlookup : (w.set here e).entries.lookup place = w.entries.lookup place := by
    rw [set, List.lookup_cons, beq_false_of_ne h]
    exact lookup_filter_of_ne h w.entries
  unfold entry?
  rw [hlookup]

/-! ## Where names lead -/

inductive LeadsTo (w : World) (here : List String) : String → List String → Prop
  | up (hhere : w.entry? here = some .folder) : LeadsTo w here ".." here.dropLast
  | down {part : String} (hhere : w.entry? here = some .folder) (hup : part ≠ "..")
      (hlength : part.utf8ByteSize ≤ 255) (hthere : (w.entry? (here ++ [part])).isSome = true) :
      LeadsTo w here part (here ++ [part])

theorem follow_cons_eq_ok {part : String} {rest : List String} :
    w.follow here (part :: rest) = .ok place ↔
      ∃ next, w.LeadsTo here part next ∧ w.follow next rest = .ok place := by
  rw [follow]
  constructor
  · intro h
    split at h
    next hhere =>
      split at h
      next hup =>
        subst hup
        exact ⟨_, .up hhere, h⟩
      next hup =>
        split at h
        · cases h
        next hlength =>
          split at h
          next hthere => exact ⟨_, .down hhere hup (Nat.not_lt.mp hlength) hthere, h⟩
          · cases h
    · cases h
    · cases h
  · rintro ⟨next, hleads, h⟩
    cases hleads with
    | up hhere =>
      rw [hhere]
      exact h
    | down hhere hup hlength hthere =>
      rw [hhere]
      dsimp only
      rw [if_neg hup, if_neg (Nat.not_lt.mpr hlength), if_pos hthere]
      exact h

theorem follow_append_eq_ok {front rest : List String} :
    w.follow here (front ++ rest) = .ok place ↔
      ∃ next, w.follow here front = .ok next ∧ w.follow next rest = .ok place := by
  induction front generalizing here with
  | nil => simp [follow]
  | cons part front ih =>
    simp only [List.cons_append, follow_cons_eq_ok, ih]
    constructor
    · rintro ⟨first, hfirst, next, hnext, h⟩
      exact ⟨next, ⟨first, hfirst, hnext⟩, h⟩
    · rintro ⟨next, ⟨first, hfirst, hnext⟩, h⟩
      exact ⟨first, hfirst, next, hnext, h⟩

/-- One world keeps another one: folders are folders in it, and what is there is there. -/
structure Keeps (w w' : World) : Prop where
  folder : ∀ place, w.entry? place = some .folder → w'.entry? place = some .folder
  there : ∀ place, (w.entry? place).isSome = true → (w'.entry? place).isSome = true

namespace Keeps
variable (hw : w.Keeps w')
include hw

theorem leadsTo {part : String} (h : w.LeadsTo here part place) : w'.LeadsTo here part place := by
  cases h with
  | up hhere => exact .up (hw.folder _ hhere)
  | down hhere hup hlength hthere => exact .down (hw.folder _ hhere) hup hlength (hw.there _ hthere)

theorem follow {parts : List String} (h : w.follow here parts = .ok place) :
    w'.follow here parts = .ok place := by
  induction parts generalizing here with
  | nil => exact h
  | cons part rest ih =>
    obtain ⟨next, hleads, hrest⟩ := follow_cons_eq_ok.mp h
    exact follow_cons_eq_ok.mpr ⟨next, hw.leadsTo hleads, ih hrest⟩

end Keeps

theorem keeps_set (h : here ≠ []) (hfree : w.entry? here ≠ some .folder) (content : Bytes) :
    w.Keeps (w.set here (.file content)) := by
  constructor
  · intro place hplace
    have hne : place ≠ here := fun heq => hfree (heq ▸ hplace)
    rwa [entry?_set_of_ne hne]
  · intro place hplace
    by_cases heq : place = here
    · rw [heq, entry?_set_self h]
      rfl
    · rwa [entry?_set_of_ne heq]

/-! ## Reading what was written -/

/-- The place of the file that a name can be written to: right in a folder, and no folder itself. -/
inductive Takes (w : World) (p : PathName) : List String → Prop
  | intro {front folder : List String} {name : String} (hparts : p.parts = front ++ [name])
      (hleads : w.locate p front = .ok folder) (hfolder : w.entry? folder = some .folder)
      (hup : name ≠ "..") (hlength : name.utf8ByteSize ≤ 255)
      (hfree : w.entry? (folder ++ [name]) ≠ some .folder) : Takes w p (folder ++ [name])

theorem write_eq_ok : w.write p content = .ok w' ↔
    ∃ here, w.Takes p here ∧ w' = w.set here (.file content) := by
  unfold write
  constructor
  · intro h
    split at h
    · cases h
    next name hname =>
      obtain ⟨front, hparts⟩ := List.getLast?_eq_some_iff.mp hname
      rw [hparts, List.dropLast_concat] at h
      obtain ⟨folder, hleads, h⟩ := bind_eq_ok.mp h
      split at h
      · cases h
      · cases h
      next hfolder =>
        dsimp only [bind, Except.bind, throw, throwThe, MonadExceptOf.throw] at h
        split at h
        · cases h
        next hup =>
          split at h
          · cases h
          next hlength =>
            split at h
            · cases h
            next hfree =>
              cases h
              exact ⟨_, .intro hparts hleads hfolder hup (Nat.not_lt.mp hlength) hfree, rfl⟩
  · rintro ⟨-, ⟨hparts, hleads, hfolder, hup, hlength, hfree⟩, rfl⟩
    rw [hparts]
    simp only [List.getLast?_concat, List.dropLast_concat, bind, Except.bind, hleads, hfolder,
      if_neg hup, if_neg (Nat.not_lt.mpr hlength)]
    rfl

/-- What is written under a name is read under it. -/
theorem Takes.read_set (h : w.Takes p here) (content : Bytes) :
    (w.set here (.file content)).read p = .ok content := by
  obtain @⟨front, folder, name, hparts, hleads, hfolder, hup, hlength, hfree⟩ := h
  have hne : folder ++ [name] ≠ [] := by simp
  have hkeeps := keeps_set hne hfree content
  have hself := entry?_set_self hne w (.file content)
  have hshort : ¬ nameLimit < p.text.utf8ByteSize := fun hlong => by
    rw [locate, if_pos hlong] at hleads
    cases hleads
  rw [locate, if_neg hshort] at hleads
  have hdown : (w.set (folder ++ [name]) (.file content)).LeadsTo folder name (folder ++ [name]) :=
    .down (hkeeps.folder _ hfolder) hup hlength (by rw [hself]; rfl)
  have hplace : (w.set (folder ++ [name]) (.file content)).locate p p.parts = .ok (folder ++ [name]) := by
    rw [locate, if_neg hshort, hparts]
    exact follow_append_eq_ok.mpr ⟨folder, hkeeps.follow hleads,
      follow_cons_eq_ok.mpr ⟨_, hdown, rfl⟩⟩
  unfold read
  simp only [hplace, hself, bind, Except.bind]
  rfl

end PenPlotter.World
