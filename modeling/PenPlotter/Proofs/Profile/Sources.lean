import PenPlotter.Proofs.Result
import PenPlotter.Proofs.World.Listing
import PenPlotter.Profile.Catalog
/-! # What profiles are read from

The files that hold profiles have one order: the packaged ones, those in the user's folder for settings,
those in the user's folder for data, each of the three by name. Loading reads one after the other and puts
each profile into the catalog.
-/
namespace PenPlotter.Catalog
open Text

variable {found : List (String × Entry)} {w : World}

/-- What a profile is read from: something in the packaged folder, or a path in a folder of the user. -/
inductive Source where
  | packaged (f : String × Entry)
  | user (p : PathName)

def Source.read (w : World) : Source → Except Failure Profile
  | packaged f => readPackaged f
  | user p => readUser w p

structure PackagedFiles (found files : List (String × Entry)) : Prop where
  ordered : files.Pairwise fun f g => Before f.1 g.1
  mem : ∀ f, f ∈ files ↔
    f ∈ found ∧ (".yml".toList <:+ f.1.toList ∨ ".yaml".toList <:+ f.1.toList)

/-- The names of the profile files in a folder of the user: in their order, those with one of two suffixes. -/
structure FolderFiles (w : World) (p : PathName) (names : List String) : Prop where
  notTooLong : w.locate p p.parts ≠ .error .nameTooLong
  ordered : names.Pairwise Before
  mem : ∀ name, name ∈ names ↔
    w.Holds p name ∧ (PathName.suffix name = ".yml" ∨ PathName.suffix name = ".yaml")

inductive InOrder (found : List (String × Entry)) (w : World) : List Source → Prop
  | intro {files : List (String × Entry)} {config data : PathName} {first second : List String}
      (hfiles : PackagedFiles found files)
      (hconfig : folder w "XDG_CONFIG_HOME" [".config"] = .ok config)
      (hdata : folder w "XDG_DATA_HOME" [".local", "share"] = .ok data)
      (hfirst : FolderFiles w config first) (hsecond : FolderFiles w data second) :
      InOrder found w (files.map .packaged ++ first.map (fun name => .user (config.below [name])) ++
        second.map fun name => .user (data.below [name]))

theorem packagedFiles_iff (hfound : (found.map (·.1)).Nodup) {files : List (String × Entry)} :
    PackagedFiles found files ↔ files = packagedFiles found := by
  have hsorted : (packagedFiles found).Pairwise fun f g => Before f.1 g.1 :=
    sortBy_pairwise (hfound.sublist (List.filter_sublist.map _))
  have hmem (f : String × Entry) : f ∈ packagedFiles found ↔
      f ∈ found ∧ (".yml".toList <:+ f.1.toList ∨ ".yaml".toList <:+ f.1.toList) := by
    rw [packagedFiles, mem_sortBy, List.mem_filter]
    simp
  constructor
  · intro h
    exact eq_of_before h.ordered hsorted fun f => (h.mem f).trans (hmem f).symm
  · rintro rfl
    exact ⟨hsorted, hmem⟩

theorem filesIn_iff (hw : (w.entries.map (·.1)).Nodup) {p : PathName} {paths : List PathName} :
    filesIn w p = .ok paths ↔
      ∃ names, FolderFiles w p names ∧ paths = names.map fun name => p.below [name] := by
  by_cases hp : w.locate p p.parts = .error .nameTooLong
  · constructor
    · intro h
      rw [filesIn, World.names, hp] at h
      cases h
    · rintro ⟨names, hnames, -⟩
      exact absurd hp hnames.notTooLong
  · obtain ⟨names, hnames, hordered, hmem⟩ := World.names_spec hw hp
    have hfiles : FolderFiles w p
        (names.filter fun name => [".yml", ".yaml"].contains (PathName.suffix name)) :=
      ⟨hp, hordered.filter _, fun name => by simp [List.mem_filter, hmem]⟩
    rw [filesIn, hnames, Except.ok.injEq]
    constructor
    · rintro rfl
      exact ⟨_, hfiles, rfl⟩
    · rintro ⟨names', hnames', rfl⟩
      rw [eq_of_before hnames'.ordered hfiles.ordered fun name =>
        (hnames'.mem name).trans (hfiles.mem name).symm]

def sources (found : List (String × Entry)) (paths : List PathName) : List Source :=
  (packagedFiles found).map .packaged ++ paths.map .user

theorem inOrder_iff (hfound : (found.map (·.1)).Nodup) (hw : (w.entries.map (·.1)).Nodup)
    {read : List Source} :
    InOrder found w read ↔ ∃ paths, userFiles w = .ok paths ∧ read = sources found paths := by
  simp only [userFiles, bind_eq_ok, filesIn_iff hw]
  constructor
  · rintro ⟨hfiles, hconfig, hdata, hfirst, hsecond⟩
    refine ⟨_, ⟨_, hconfig, _, hdata, _, ⟨_, hfirst, rfl⟩, _, ⟨_, hsecond, rfl⟩, rfl⟩, ?_⟩
    rw [sources, (packagedFiles_iff hfound).mp hfiles, List.map_append, List.map_map, List.map_map,
      List.append_assoc]
    rfl
  · rintro ⟨paths, ⟨config, hconfig, data, hdata, _, ⟨first, hfirst, rfl⟩, _, ⟨second, hsecond, rfl⟩,
      hpaths⟩, rfl⟩
    cases hpaths
    rw [sources, List.map_append, List.map_map, List.map_map, ← List.append_assoc]
    exact .intro ((packagedFiles_iff hfound).mpr rfl) hconfig hdata hfirst hsecond

theorem packaged_eq : packaged found =
    ((packagedFiles found).mapM readPackaged).map fun ps => ps.foldl put [] := by
  have hfold (files : List (String × Entry)) (c : Catalog) :
      files.foldlM (fun c f => do return c.put (← readPackaged f)) c =
        (files.mapM readPackaged).map fun ps => ps.foldl put c := by
    induction files generalizing c with
    | nil => rfl
    | cons f files ih =>
      rw [List.foldlM_cons, List.mapM_cons]
      cases readPackaged f with
      | error e => rfl
      | ok p =>
        refine (ih (c.put p)).trans ?_
        cases files.mapM readPackaged <;> rfl
  exact hfold _ _

theorem addUser_catalog (paths : List PathName) (c : Catalog) :
    (addUser w paths c).2 = (paths.mapM (readUser w)).map fun us => us.foldl put c := by
  induction paths generalizing c with
  | nil => rfl
  | cons path paths ih =>
    rw [addUser, List.mapM_cons]
    cases readUser w path with
    | error e => rfl
    | ok p =>
      refine (ih (c.put p)).trans ?_
      cases paths.mapM (readUser w) <;> rfl

/-- Loading reads every file and puts the profiles into an empty catalog. -/
theorem loadFrom_catalog {paths : List PathName} (hpaths : userFiles w = .ok paths) :
    (loadFrom found w).2 =
      ((sources found paths).mapM (Source.read w)).map fun ps => ps.foldl put [] := by
  have hread : (sources found paths).mapM (Source.read w) = (do
      let ps ← (packagedFiles found).mapM readPackaged
      let us ← paths.mapM (readUser w)
      return ps ++ us) := by
    rw [sources, List.mapM_append, List.mapM_map, List.mapM_map]
    rfl
  rw [loadFrom, packaged_eq, hread]
  cases (packagedFiles found).mapM readPackaged with
  | error e => rfl
  | ok ps =>
    rw [hpaths]
    refine (addUser_catalog paths (ps.foldl put [])).trans ?_
    cases paths.mapM (readUser w) with
    | error e => rfl
    | ok us => exact congrArg Except.ok List.foldl_append.symm

end PenPlotter.Catalog
