import PenPlotter.Proofs.Profile.LastWins
/-! # Warnings of overrides

The warning that a profile of the user takes the place of a packaged one is given whenever its identifier
is in the catalog, and that holds those of the user's earlier profiles too.
-/
namespace PenPlotter.Catalog
open Text

variable {found : List (String × Entry)} {w : World} {c : Catalog} {ps us : List Profile}

structure Reads (found : List (String × Entry)) (w : World) (ps us : List Profile) : Prop where
  packaged : (packagedFiles found).map readPackaged = ps.map .ok
  user : ∃ paths, userFiles w = .ok paths ∧ paths.map (readUser w) = us.map .ok

/-- The identifiers that are known, or come a second time. -/
def repeated : List String → List String → List String
  | _, [] => []
  | known, id :: ids =>
    if id ∈ known then id :: repeated (id :: known) ids else repeated (id :: known) ids

theorem repeated_congr {known known' : List String} (h : ∀ id, id ∈ known ↔ id ∈ known')
    (ids : List String) : repeated known ids = repeated known' ids := by
  induction ids generalizing known known' with
  | nil => rfl
  | cons id ids ih =>
    have hcons (other : String) : other ∈ id :: known ↔ other ∈ id :: known' := by
      rw [List.mem_cons, List.mem_cons, h]
    simp only [repeated, h, ih hcons]

theorem filter_sublist_repeated (known seen ids : List String) :
    (ids.filter (· ∈ known)).Sublist (repeated (seen ++ known) ids) := by
  induction ids generalizing seen with
  | nil => exact List.Sublist.refl _
  | cons id ids ih =>
    have ih := ih (id :: seen)
    rw [List.cons_append] at ih
    rw [repeated]
    by_cases hknown : id ∈ known
    · rw [List.filter_cons_of_pos (by simpa using hknown),
        if_pos (List.mem_append_right seen hknown)]
      exact ih.cons_cons id
    · rw [List.filter_cons_of_neg (by simpa using hknown)]
      split
      · exact ih.cons id
      · exact ih

/-- It is the known identifiers alone just where no other one comes twice or was seen before. -/
theorem repeated_eq_filter_iff (known seen ids : List String) :
    repeated (seen ++ known) ids = ids.filter (· ∈ known) ↔
      (ids.filter (· ∉ known)).Nodup ∧ ∀ id ∈ ids.filter (· ∉ known), id ∉ seen := by
  -- `seen` grows by each identifier, so freshness of the rest is carried along with it
  induction ids generalizing seen with
  | nil => simp [repeated]
  | cons id ids ih =>
    have ih := ih (id :: seen)
    rw [List.cons_append] at ih
    rw [repeated]
    by_cases hknown : id ∈ known
    · rw [List.filter_cons_of_pos (by simpa using hknown),
        List.filter_cons_of_neg (by simpa using hknown), if_pos (List.mem_append_right seen hknown),
        List.cons.injEq, ih]
      have hne (other : String) (hother : other ∈ ids.filter (· ∉ known)) : other ≠ id := by
        rintro rfl
        simp [hknown] at hother
      simp only [true_and, List.mem_cons, not_or]
      exact and_congr_right fun _ => forall₂_congr fun other hother => by simp [hne other hother]
    · rw [List.filter_cons_of_neg (by simpa using hknown),
        List.filter_cons_of_pos (by simpa using hknown), List.nodup_cons, List.forall_mem_cons]
      by_cases hseen : id ∈ seen
      · rw [if_pos (List.mem_append_left known hseen)]
        -- an identifier that was seen is repeated though it is not known
        refine iff_of_false (fun heq => ?_) fun h => h.2.1 hseen
        have hmem : id ∈ ids.filter (· ∈ known) := heq ▸ List.mem_cons_self
        exact hknown (by simpa using (List.mem_filter.mp hmem).2)
      · rw [if_neg (by simp [hknown, hseen]), ih]
        simp only [List.mem_cons, not_or]
        constructor
        · rintro ⟨hnodup, hrest⟩
          exact ⟨⟨fun hmem => (hrest _ hmem).1 rfl, hnodup⟩, hseen, fun other h => (hrest other h).2⟩
        · rintro ⟨⟨hfresh, hnodup⟩, -, hrest⟩
          exact ⟨hnodup, fun other h => ⟨fun heq => hfresh (heq ▸ h), hrest other h⟩⟩

theorem addUser_warnings {paths : List PathName} {us : List Profile}
    (h : paths.mapM (readUser w) = .ok us) :
    (addUser w paths c).1 = (repeated (c.map (·.id)) (us.map (·.id))).map overrideWarning := by
  induction paths generalizing c us with
  | nil =>
    cases h
    rfl
  | cons path paths ih =>
    rw [List.mapM_cons, bind_eq_ok] at h
    obtain ⟨u, hu, h⟩ := h
    obtain ⟨us, hus, h⟩ := bind_eq_ok.mp h
    cases h
    have hids : repeated ((c.put u).map (·.id)) (us.map (·.id)) =
        repeated (u.id :: c.map (·.id)) (us.map (·.id)) := by
      refine repeated_congr (fun id => ?_) _
      rw [ids_put]
      split
      next hhas =>
        have hmem := has_iff.mp hhas
        rw [List.mem_cons]
        exact ⟨.inr, fun h => h.elim (fun h => h ▸ hmem) fun h => h⟩
      · rw [List.mem_append, List.mem_singleton, List.mem_cons, or_comm]
    simp only [addUser, hu, List.map_cons, repeated, ih hus, hids, has_iff]
    split <;> rfl

theorem exists_reads (h : (loadFrom found w).2 = .ok c) : ∃ ps us, Reads found w ps us := by
  rw [loadFrom, packaged_eq] at h
  cases hps : (packagedFiles found).mapM readPackaged with
  | error e =>
    rw [hps] at h
    cases h
  | ok ps =>
    cases hpaths : userFiles w with
    | error e =>
      rw [hps, hpaths] at h
      cases h
    | ok paths =>
      rw [hps, hpaths] at h
      obtain ⟨us, hus, -⟩ := map_eq_ok.mp ((addUser_catalog paths _).symm.trans h)
      exact ⟨ps, us, mapM_eq_ok.mp hps, paths, hpaths, mapM_eq_ok.mp hus⟩

/-- What loading gives where all profiles can be read. -/
theorem Reads.loadFrom_eq (h : Reads found w ps us) :
    loadFrom found w = ((repeated (ps.map (·.id)) (us.map (·.id))).map overrideWarning,
      .ok ((ps ++ us).foldl put [])) := by
  obtain ⟨hps, paths, hpaths, hus⟩ := h
  have hus := mapM_eq_ok.mpr hus
  have hids : repeated ((ps.foldl put []).map (·.id)) (us.map (·.id)) =
      repeated (ps.map (·.id)) (us.map (·.id)) :=
    repeated_congr (fun id => by rw [ids_foldl_put, List.mem_eraseDups]) _
  rw [loadFrom, packaged_eq, mapM_eq_ok.mpr hps, hpaths]
  refine Prod.ext ((addUser_warnings hus).trans (by rw [hids])) ?_
  refine (addUser_catalog paths _).trans ?_
  rw [hus, List.foldl_append]
  rfl

/-- A catalog is loaded with a warning for each profile of the user whose identifier a packaged profile or
an earlier one of the user has. These are the profiles with a packaged identifier just where the user has no
two profiles of one identifier that is not packaged. -/
theorem loadFrom_warnings_iff {found : List (String × Entry)} {w : World} {c : Catalog}
    (h : (loadFrom found w).2 = .ok c) :
    ∃ ps us, Reads found w ps us ∧
      (loadFrom found w).1 =
        (repeated (ps.map (·.id)) (us.map (·.id))).map overrideWarning ∧
      ((loadFrom found w).1 =
          ((us.map (·.id)).filter (· ∈ ps.map (·.id))).map overrideWarning ↔
        ((us.map (·.id)).filter (· ∉ ps.map (·.id))).Nodup) := by
  obtain ⟨ps, us, hreads⟩ := exists_reads h
  refine ⟨ps, us, hreads, ?_⟩
  have hiff := repeated_eq_filter_iff (ps.map (·.id)) [] (us.map (·.id))
  have hsublist := filter_sublist_repeated (ps.map (·.id)) [] (us.map (·.id))
  simp only [List.nil_append, List.not_mem_nil, not_false_eq_true, implies_true, and_true]
    at hiff hsublist
  rw [hreads.loadFrom_eq, ← hiff]
  refine ⟨rfl, fun heq => ?_, fun heq => by rw [heq]⟩
  have hlength := congrArg List.length heq
  rw [List.length_map, List.length_map] at hlength
  exact (hsublist.eq_of_length hlength.symm).symm

theorem loadFrom_warnings_iff_own : ∃ c ps us, (loadFrom tinyFolder ownWorld).2 = .ok c ∧
    Reads tinyFolder ownWorld ps us ∧
    (loadFrom tinyFolder ownWorld).1 =
      (repeated (ps.map (·.id)) (us.map (·.id))).map overrideWarning ∧
    ((loadFrom tinyFolder ownWorld).1 =
        ((us.map (·.id)).filter (· ∈ ps.map (·.id))).map overrideWarning ↔
      ((us.map (·.id)).filter (· ∉ ps.map (·.id))).Nodup) := by
  have hloads : (loadFrom tinyFolder ownWorld).2.toOption.isSome = true := by decide +kernel
  obtain ⟨c, hc⟩ := Option.isSome_iff_exists.mp hloads
  have hc := toOption_eq_some hc
  obtain ⟨ps, us, h⟩ := loadFrom_warnings_iff hc
  exact ⟨c, ps, us, hc, h⟩

def twiceWorld : World where
  environment := [("XDG_CONFIG_HOME", "/c"), ("XDG_DATA_HOME", "/d")]
  entries := [
    (["c"], .folder),
    (["c", "hpglctl"], .folder),
    (["c", "hpglctl", "profiles"], .folder),
    (["c", "hpglctl", "profiles", "a.yaml"],
      .file (Utf8.encode "{id: mine, name: A, serial: {}}".toList)),
    (["d"], .folder),
    (["d", "hpglctl"], .folder),
    (["d", "hpglctl", "profiles"], .folder),
    (["d", "hpglctl", "profiles", "b.yaml"],
      .file (Utf8.encode "{id: mine, name: B, serial: {}}".toList))]

theorem loadFrom_overwarns :
    ¬ ∀ (found : List (String × Entry)) (w : World) (c : Catalog) (ps us : List Profile),
      (loadFrom found w).2 = .ok c → Reads found w ps us →
        (loadFrom found w).1 =
          ((us.map (·.id)).filter (· ∈ ps.map (·.id))).map overrideWarning := by
  intro h
  have hpackaged : ((packagedFiles tinyFolder).mapM readPackaged).toOption.map
      (fun ps => ps.map (·.id)) = some ["tiny"] := by
    decide +kernel
  have hpaths : userFiles twiceWorld = .ok [⟨"/", ["c", "hpglctl", "profiles", "a.yaml"]⟩,
      ⟨"/", ["d", "hpglctl", "profiles", "b.yaml"]⟩] :=
    toOption_eq_some (by decide +kernel)
  have huser : ([⟨"/", ["c", "hpglctl", "profiles", "a.yaml"]⟩,
      ⟨"/", ["d", "hpglctl", "profiles", "b.yaml"]⟩].mapM (readUser twiceWorld)).toOption.map
        (fun us => us.map (·.id)) = some ["mine", "mine"] := by
    decide +kernel
  obtain ⟨ps, hps, hpsids⟩ := Option.map_eq_some_iff.mp hpackaged
  obtain ⟨us, hus, husids⟩ := Option.map_eq_some_iff.mp huser
  have hreads : Reads tinyFolder twiceWorld ps us :=
    ⟨mapM_eq_ok.mp (toOption_eq_some hps), _, hpaths, mapM_eq_ok.mp (toOption_eq_some hus)⟩
  have hwarnings := h tinyFolder twiceWorld _ ps us (by rw [hreads.loadFrom_eq]) hreads
  rw [hreads.loadFrom_eq, hpsids, husids] at hwarnings
  have hsome : (repeated ["tiny"] ["mine", "mine"]).map overrideWarning ≠ [] := by decide
  exact hsome hwarnings

end PenPlotter.Catalog
