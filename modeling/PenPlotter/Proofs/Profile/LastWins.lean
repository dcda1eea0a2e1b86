import Mathlib.Data.List.Induction
import PenPlotter.Proofs.Profile.Sources
/-! # The last profile of an identifier counts

A catalog is what is left when profiles are put into it one after the other: it has each identifier once,
in the order in which they came up first, and for each the profile that came up last. With all files read
in one order this tells what loading gives, and that it does not depend on how folders are listed.
-/
namespace PenPlotter.Catalog
open Text

variable {found : List (String × Entry)} {w : World} {c : Catalog} {ps : List Profile}

/-- A catalog holds the identifiers of some profiles in the order of their first occurrence, and for each
identifier the last of the profiles that have it. -/
structure LastWins (ps : List Profile) (c : Catalog) : Prop where
  ids : c.map (·.id) = (ps.map (·.id)).eraseDups
  last : ∀ id p, c.find? (·.id == id) = some p ↔
    ∃ before after, ps = before ++ p :: after ∧ p.id = id ∧ ∀ q ∈ after, q.id ≠ id

theorem has_iff {id : String} : c.has id = true ↔ id ∈ c.map (·.id) := by
  rw [has, List.any_eq_true, List.mem_map]
  simp

theorem replaced_id (p q : Profile) : (if q.id == p.id then p else q).id = q.id := by
  split
  next h => exact (eq_of_beq h).symm
  · rfl

theorem ids_put (p : Profile) :
    (c.put p).map (·.id) = if c.has p.id then c.map (·.id) else c.map (·.id) ++ [p.id] := by
  rw [put]
  split
  · rw [List.map_map]
    exact List.map_congr_left fun q _ => replaced_id p q
  · rw [List.map_append, List.map_singleton]

/-- A profile that is put in is found under its identifier, and all others are found as before. -/
theorem find?_put (p : Profile) (id : String) :
    (c.put p).find? (·.id == id) = if p.id = id then some p else c.find? (·.id == id) := by
  rw [put]
  split
  next hhas =>
    rw [List.find?_map]
    have hids : ((fun q : Profile => q.id == id) ∘ fun q => if q.id == p.id then p else q) =
        fun q => q.id == id := by
      funext q
      rw [Function.comp_apply, replaced_id]
    rw [hids]
    cases hfind : c.find? (·.id == id) with
    | none =>
      have hid : p.id ≠ id := by
        rintro rfl
        obtain ⟨q, hq, hqid⟩ := List.mem_map.mp (has_iff.mp hhas)
        simpa [hqid] using List.find?_eq_none.mp hfind q hq
      rw [if_neg hid, Option.map_none]
    | some q =>
      have hq : q.id = id := by simpa using List.find?_some hfind
      rw [Option.map_some, hq]
      by_cases hid : p.id = id
      · simp [hid]
      · simp [hid, Ne.symm hid]
  next hhas =>
    rw [List.find?_append]
    by_cases hid : p.id = id
    · have hfind : c.find? (·.id == id) = none := by
        rw [List.find?_eq_none]
        intro q hq hqid
        exact hhas (has_iff.mpr (List.mem_map.mpr ⟨q, hq, (eq_of_beq hqid).trans hid.symm⟩))
      simp [hfind, hid]
    · simp [hid]

theorem ids_foldl_put (ps : List Profile) :
    (ps.foldl put []).map (·.id) = (ps.map (·.id)).eraseDups := by
  -- the last profile is taken off the end, since that is where a new identifier goes
  induction ps using List.reverseRecOn with
  | nil => rfl
  | append_singleton ps p ih =>
    have hhas : (ps.foldl put []).has p.id = true ↔ p.id ∈ ps.map (·.id) := by
      rw [has_iff, ih, List.mem_eraseDups]
    rw [List.foldl_append, List.foldl_cons, List.foldl_nil, ids_put, List.map_append,
      List.map_singleton, List.eraseDups_append, ih, List.removeAll]
    by_cases hp : p.id ∈ ps.map (·.id)
    · rw [if_pos (hhas.mpr hp), List.filter_cons_of_neg (by simpa using hp)]
      simp
    · rw [if_neg (mt hhas.mp hp), List.filter_cons_of_pos (by simpa using hp)]
      simp [List.eraseDups_cons]

theorem find?_foldl_put (ps : List Profile) (c : Catalog) (id : String) :
    (ps.foldl put c).find? (·.id == id) =
      (ps.reverse.find? (·.id == id)).or (c.find? (·.id == id)) := by
  induction ps generalizing c with
  | nil => rfl
  | cons p ps ih =>
    rw [List.foldl_cons, ih, find?_put, List.reverse_cons, List.find?_append, Option.or_assoc,
      List.find?_singleton]
    by_cases hid : p.id = id
    · simp [hid]
    · simp [hid]

/-- Putting profiles into an empty catalog leaves the last of each identifier. -/
theorem foldl_put_lastWins (ps : List Profile) : LastWins ps (ps.foldl put []) := by
  refine ⟨ids_foldl_put ps, fun id p => ?_⟩
  rw [find?_foldl_put, List.find?_nil, Option.or_none, List.find?_eq_some_iff_append]
  constructor
  · rintro ⟨hid, after, before, hps, hafter⟩
    refine ⟨before.reverse, after.reverse, ?_, eq_of_beq hid, fun q hq => ?_⟩
    · simpa using congrArg List.reverse hps
    · simpa using hafter q (List.mem_reverse.mp hq)
  · rintro ⟨before, after, rfl, hid, hafter⟩
    refine ⟨beq_of_eq hid, after.reverse, before.reverse, by simp, fun q hq => ?_⟩
    simpa using hafter q (List.mem_reverse.mp hq)

section Relisted
variable {found' : List (String × Entry)} {listing : List (List String × Entry)}

theorem packagedFiles_relisted (hfound : (found.map (·.1)).Nodup) (h : found'.Perm found) :
    packagedFiles found' = packagedFiles found := by
  have hfound' : (found'.map (·.1)).Nodup := (h.map _).nodup_iff.mpr hfound
  obtain ⟨hordered, hmem⟩ := (packagedFiles_iff hfound').mpr rfl
  refine (packagedFiles_iff hfound).mp ⟨hordered, fun f => ?_⟩
  rw [hmem, h.mem_iff]

variable (hl : listing.Perm w.entries) (hw : (w.entries.map (·.1)).Nodup)
include hl hw

theorem userFiles_relisted : userFiles { w with entries := listing } = userFiles w := by
  have hfiles (p : PathName) : filesIn { w with entries := listing } p = filesIn w p := by
    rw [filesIn, filesIn, World.names_relisted hl hw]
  simp only [userFiles, hfiles]
  rfl

theorem addUser_relisted (paths : List PathName) (c : Catalog) :
    addUser { w with entries := listing } paths c = addUser w paths c := by
  induction paths generalizing c with
  | nil => rfl
  | cons p paths ih =>
    have hread : readUser { w with entries := listing } p = readUser w p := by
      rw [readUser, readUser, World.document_relisted hl hw]
    simp only [addUser, hread, ih]

/-- Loading does not depend on the order in which folders are listed. -/
theorem loadFrom_relisted (hfound : (found.map (·.1)).Nodup) (h : found'.Perm found) :
    loadFrom found' { w with entries := listing } = loadFrom found w := by
  simp only [loadFrom, packaged, packagedFiles_relisted hfound h, userFiles_relisted hl hw,
    addUser_relisted hl hw]

end Relisted

/-- Where all files hold profiles, loading gives the last of each identifier, and every packaged identifier
is there; otherwise it fails as the first file that does not hold one. The order in which folders are listed
does not matter. -/
theorem loadFrom_lastWins {found : List (String × Entry)} {w : World} {read : List Source}
    (hfound : (found.map (·.1)).Nodup) (hw : (w.entries.map (·.1)).Nodup)
    (hread : InOrder found w read) :
    (∀ ps, read.map (Source.read w) = ps.map .ok →
      ∃ c, (loadFrom found w).2 = .ok c ∧ LastWins ps c ∧
        ∀ f p, .packaged f ∈ read → readPackaged f = .ok p → c.has p.id = true) ∧
      (∀ before s after e, read = before ++ s :: after →
        (∀ t ∈ before, ∃ p, t.read w = .ok p) → s.read w = .error e →
        (loadFrom found w).2 = .error e) ∧
      ∀ found' listing, found'.Perm found → listing.Perm w.entries →
        loadFrom found' { w with entries := listing } = loadFrom found w := by
  obtain ⟨paths, hpaths, rfl⟩ := (inOrder_iff hfound hw).mp hread
  rw [loadFrom_catalog hpaths]
  refine ⟨fun ps hps => ?_, fun before s after e heq hbefore hs => ?_, fun found' listing hf hl =>
    loadFrom_relisted hl hw hfound hf⟩
  · rw [mapM_eq_ok.mpr hps]
    refine ⟨ps.foldl put [], rfl, foldl_put_lastWins ps, fun f p hf hp => ?_⟩
    have hmem : Except.ok p ∈ ps.map (Except.ok (ε := Failure)) :=
      hps ▸ List.mem_map.mpr ⟨.packaged f, hf, hp⟩
    obtain ⟨q, hq, hqp⟩ := List.mem_map.mp hmem
    cases hqp
    rw [has_iff, (foldl_put_lastWins ps).ids, List.mem_eraseDups]
    exact List.mem_map_of_mem hq
  · rw [heq, mapM_eq_error hbefore hs]
    rfl

def tinyFolder : List (String × Entry) :=
  [("tiny.yaml", .file (Utf8.encode "{id: tiny, name: Tiny, serial: {}}".toList))]

def ownWorld : World where
  environment := [("XDG_CONFIG_HOME", "/c")]
  entries := [
    (["c"], .folder),
    (["c", "hpglctl"], .folder),
    (["c", "hpglctl", "profiles"], .folder),
    (["c", "hpglctl", "profiles", "own.yaml"],
      .file (Utf8.encode "{id: tiny, name: Own, serial: {}}".toList))]

theorem loadFrom_lastWins_own : ∃ read ps c,
    (tinyFolder.map (·.1)).Nodup ∧ (ownWorld.entries.map (·.1)).Nodup ∧
      InOrder tinyFolder ownWorld read ∧ read.map (Source.read ownWorld) = ps.map .ok ∧
      ps.map (·.id) = ["tiny", "tiny"] ∧
      (loadFrom tinyFolder ownWorld).2 = .ok c ∧ LastWins ps c := by
  have hfound : (tinyFolder.map (·.1)).Nodup := by decide
  have hw : (ownWorld.entries.map (·.1)).Nodup := by decide
  have hpaths : userFiles ownWorld = .ok [⟨"/", ["c", "hpglctl", "profiles", "own.yaml"]⟩] :=
    toOption_eq_some (by decide +kernel)
  have hread := (inOrder_iff hfound hw).mpr ⟨_, hpaths, rfl⟩
  have hids : ((sources tinyFolder [⟨"/", ["c", "hpglctl", "profiles", "own.yaml"]⟩]).mapM
      (Source.read ownWorld)).toOption.map (fun ps => ps.map (·.id)) = some ["tiny", "tiny"] := by
    decide +kernel
  obtain ⟨ps, hps, hids⟩ := Option.map_eq_some_iff.mp hids
  have hps := mapM_eq_ok.mp (toOption_eq_some hps)
  obtain ⟨c, hc, hlast, -⟩ := (loadFrom_lastWins hfound hw hread).1 ps hps
  exact ⟨_, ps, c, hfound, hw, hread, hps, hids, hc, hlast⟩

end PenPlotter.Catalog
