import PenPlotter.Proofs.Profile.Loaded
import PenPlotter.Proofs.Profile.Overrides
/-! # Listed and resolved

A catalog has each identifier once: it does when it starts empty, when a profile is put into it and when some
are dropped. So listing the profiles and resolving their identifiers agree, in what there is and in the order
that is told. The default profile is packaged, and a profile of the user only takes its place.
-/
namespace PenPlotter.Catalog
open Text

variable {found : List (String × Entry)} {w : World} {c : Catalog} {ps : List Profile}

/-- No two profiles have one identifier. -/
def Keyed (c : Catalog) : Prop := (c.map (·.id)).Nodup

theorem put_keyed (hc : c.Keyed) (p : Profile) : (c.put p).Keyed := by
  rw [Keyed, ids_put]
  split
  · exact hc
  next hhas =>
    have hfresh : p.id ∉ c.map (·.id) := mt has_iff.mpr hhas
    exact List.nodup_append.mpr ⟨hc, List.nodup_singleton _, fun a ha b hb =>
      fun hab => hfresh (by rwa [← List.mem_singleton.mp hb, ← hab])⟩

theorem foldl_put_keyed (hc : c.Keyed) (ps : List Profile) : (ps.foldl put c).Keyed := by
  induction ps generalizing c with
  | nil => exact hc
  | cons p ps ih => exact ih (put_keyed hc p)

theorem filter_keyed (hc : c.Keyed) (stays : Profile → Bool) : Keyed (c.filter stays) :=
  hc.sublist (List.filter_sublist.map _)

theorem loaded_keyed (h : (loadFrom found w).2 = .ok c) : c.Keyed := by
  obtain ⟨ps, us, hreads⟩ := exists_reads h
  rw [hreads.loadFrom_eq] at h
  cases h
  have hempty : Keyed [] := List.nodup_nil
  exact foldl_put_keyed hempty _

theorem foldl_drop (removed : List String) (c : Catalog) :
    removed.foldl drop c = c.filter (·.id ∉ removed) := by
  induction removed generalizing c with
  | nil => simp
  | cons id removed ih =>
    rw [List.foldl_cons, ih, drop, List.filter_filter]
    refine List.filter_congr fun p _ => ?_
    rw [Bool.eq_iff_iff]
    simp [and_comm]

/-- What is packaged is in the catalog by its identifier, whatever the user's folders hold. -/
theorem packaged_kept (hps : (packagedFiles found).mapM readPackaged = .ok ps)
    (h : (loadFrom found w).2 = .ok c) {id : String} (hid : id ∈ ps.map (·.id)) :
    id ∈ c.map (·.id) := by
  obtain ⟨ps', us, hreads⟩ := exists_reads h
  have hsame : ps = ps' := Except.ok.inj (hps.symm.trans (mapM_eq_ok.mpr hreads.packaged))
  rw [hreads.loadFrom_eq] at h
  cases h
  rw [ids_foldl_put, List.mem_eraseDups, List.map_append, ← hsame]
  exact List.mem_append_left _ hid

namespace Keyed
variable (hc : c.Keyed)
include hc

theorem find?_iff {id : String} {p : Profile} :
    c.find? (·.id == id) = some p ↔ p ∈ c ∧ p.id = id := by
  constructor
  · intro h
    exact ⟨List.mem_of_find?_eq_some h, by simpa using List.find?_some h⟩
  · rintro ⟨hp, rfl⟩
    have hfound : (c.find? (·.id == p.id)).isSome = true :=
      List.find?_isSome.mpr ⟨p, hp, beq_self_eq_true p.id⟩
    obtain ⟨q, hq⟩ := Option.isSome_iff_exists.mp hfound
    have hid : q.id = p.id := by simpa using List.find?_some hq
    rw [hq, List.inj_on_of_nodup_map hc (List.mem_of_find?_eq_some hq) hp hid]

theorem sorted_pairwise : c.sorted.Pairwise fun p q => Before p.id q.id := sortBy_pairwise hc

/-- The identifiers in their order are those of the profiles in theirs. -/
theorem ids_eq : c.ids = c.sorted.map (·.id) := by
  have hids : ((c.map (·.id)).map fun id => id).Nodup := (List.map_id' _).symm ▸ hc
  refine @eq_of_before String (fun id => id) _ _ (sortBy_pairwise hids)
    (List.pairwise_map.mpr hc.sorted_pairwise) fun id => ?_
  rw [ids, mem_sortBy, sorted]
  exact ((List.mergeSort_perm c _).map _).mem_iff.symm

end Keyed

/-- Only the identifier that is meant counts. -/
theorem resolve_congr {id id' : Option String} (h : wanted id = wanted id') :
    c.resolve id = c.resolve id' := by
  cases hid : c.resolve id with
  | error e => exact (resolve_eq_error.mpr (h ▸ resolve_eq_error.mp hid)).symm
  | ok p => exact (resolve_eq_ok.mpr (h ▸ resolve_eq_ok.mp hid)).symm

def packagedFolder : List (String × Entry) :=
  Profile.packaged.map fun f => (f.1, .file (Utf8.encode f.2.toList))

theorem load_packaged (w : World) : load Profile.packaged w = loadFrom packagedFolder w := rfl

theorem packagedFiles_packagedFolder : packagedFiles packagedFolder = packagedFolder := by
  have hprofiles : ∀ f ∈ packagedFolder, ([".yml", ".yaml"].any fun ending =>
      ending.toList.isSuffixOf f.1.toList) = true := by
    decide
  rw [packagedFiles, List.filter_eq_self.mpr hprofiles]
  exact List.mergeSort_of_pairwise (by decide)

theorem exists_packaged : ∃ ps, (packagedFiles packagedFolder).mapM readPackaged = .ok ps ∧
    ps.map (·.id) = ["hp7470a", "hp7470a_mode1"] := by
  rw [packagedFiles_packagedFolder]
  have hids : (packagedFolder.mapM readPackaged).toOption.map (fun ps => ps.map (·.id)) =
      some ["hp7470a", "hp7470a_mode1"] := by
    -- a text of several lines is evaluated line by line
    simp only [packagedFolder, Profile.packaged, Profile.modeTwoText, Profile.modeOneText,
      List.map_cons, List.map_nil, String.toList_intercalate, String.reduceToList]
    decide +kernel
  obtain ⟨ps, hps, hids⟩ := Option.map_eq_some_iff.mp hids
  exact ⟨ps, toOption_eq_some hps, hids⟩

theorem default_has {c : Catalog} (h : (load Profile.packaged w).2 = .ok c) :
    defaultId ∈ c.map (·.id) := by
  obtain ⟨ps, hps, hids⟩ := exists_packaged
  exact packaged_kept hps h (hids ▸ List.mem_cons_self)

def available : List String → String
  | [] => "<none>"
  | id :: ids => ", ".intercalate (id :: ids)

theorem message_unknown (id : String) (known : List String) :
    (Failure.unknownProfile id known).message =
      s!"Unknown profile '{id}'. Available: {available known}" := by
  cases known <;> rfl

/-- The profiles that are left of a loaded catalog are listed once each, in the order of their identifiers,
and an identifier is resolved to the listed profile that has it. An unknown one is refused with the listed
identifiers. No identifier means the default one, and that is known whatever the user's folders hold. -/
theorem resolve_listed {w : World} {loaded : Catalog} (h : (load Profile.packaged w).2 = .ok loaded)
    (removed : List String) :
    let c := removed.foldl drop loaded
    let known := c.sorted.map (·.id)
    c.sorted.Perm (loaded.filter (·.id ∉ removed)) ∧
      known.Pairwise Before ∧
      (∀ id, id ≠ "" →
        (∀ p, c.resolve (some id) = .ok p ↔ p ∈ c.sorted ∧ p.id = id) ∧
        (id ∉ known → ∃ e, c.resolve (some id) = .error e ∧ e = .unknownProfile id known ∧
          e.message = s!"Unknown profile '{id}'. Available: {available known}")) ∧
      (∀ id, id = none ∨ id = some "" → c.resolve id = c.resolve (some "hp7470a")) ∧
      ("hp7470a" ∉ removed → ∃ p, c.resolve (some "hp7470a") = .ok p) := by
  intro c known
  have hdropped : c = loaded.filter (·.id ∉ removed) := foldl_drop removed loaded
  have hc : c.Keyed := hdropped ▸ filter_keyed (loaded_keyed h) _
  have hids (id : String) : id ∈ c.map (·.id) ↔ id ∈ known :=
    ((List.mergeSort_perm c _).map _).mem_iff.symm
  have hresolves (id : String) (hid : id ≠ "") (p : Profile) :
      c.resolve (some id) = .ok p ↔ p ∈ c.sorted ∧ p.id = id := by
    rw [resolve_eq_ok, wanted_some hid, hc.find?_iff, sorted, mem_sortBy]
  refine ⟨hdropped ▸ List.mergeSort_perm c _, List.pairwise_map.mpr hc.sorted_pairwise,
    fun id hid => ⟨hresolves id hid, fun hunknown => ?_⟩, ?_, fun hkept => ?_⟩
  · refine ⟨_, resolve_eq_error.mpr ⟨?_, rfl⟩, ?_, ?_⟩
    · rwa [wanted_some hid, hids]
    · rw [wanted_some hid, hc.ids_eq]
    · rw [wanted_some hid, hc.ids_eq, message_unknown]
  · rintro id (rfl | rfl)
    · exact resolve_congr (wanted_some (by decide)).symm
    · exact resolve_congr (wanted_some (by decide)).symm
  · obtain ⟨p, hp, hid⟩ := List.mem_map.mp (default_has h)
    refine ⟨p, (hresolves _ (by decide) p).mpr ⟨?_, hid⟩⟩
    rw [sorted, mem_sortBy, hdropped, List.mem_filter]
    exact ⟨hp, by rwa [hid, decide_eq_true_iff]⟩

/-- The packaged profiles and one of the user, when two of the three are dropped. -/
theorem resolve_listed_own : ∃ loaded, (load Profile.packaged ownWorld).2 = .ok loaded ∧
    let c := ["tiny", "hp7470a_mode1"].foldl drop loaded
    c.sorted.Perm (loaded.filter (·.id ∉ ["tiny", "hp7470a_mode1"])) ∧
      (c.sorted.map (·.id)).Pairwise Before ∧ ∃ p, c.resolve (some "hp7470a") = .ok p := by
  obtain ⟨ps, hps, -⟩ := exists_packaged
  have hpaths : userFiles ownWorld = .ok [⟨"/", ["c", "hpglctl", "profiles", "own.yaml"]⟩] :=
    toOption_eq_some (by decide +kernel)
  have huser : ([⟨"/", ["c", "hpglctl", "profiles", "own.yaml"]⟩].mapM
      (readUser ownWorld)).toOption.isSome = true := by
    decide +kernel
  obtain ⟨us, hus⟩ := Option.isSome_iff_exists.mp huser
  have hreads : Reads packagedFolder ownWorld ps us :=
    ⟨mapM_eq_ok.mp hps, _, hpaths, mapM_eq_ok.mp (toOption_eq_some hus)⟩
  have hloaded : (load Profile.packaged ownWorld).2 = .ok ((ps ++ us).foldl put []) := by
    rw [load_packaged, hreads.loadFrom_eq]
  obtain ⟨hperm, hordered, -, -, hdefault⟩ :=
    resolve_listed hloaded ["tiny", "hp7470a_mode1"]
  exact ⟨_, hloaded, hperm, hordered, hdefault (by decide)⟩

end PenPlotter.Catalog
