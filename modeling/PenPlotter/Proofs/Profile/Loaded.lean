import PenPlotter.Profile.Catalog
import PenPlotter.Proofs.Profile.Built
/-! # Catalogs of built profiles

A catalog starts empty and gets profiles that were built from documents; dropping profiles adds none. So
every profile of a catalog that can come up was built from a document that the schema accepts, and its
set-up can be rendered.
-/
namespace PenPlotter

def Profile.Built (p : Profile) : Prop := ∃ source doc, Profile.build source doc = .ok p

namespace Catalog

/-- The catalogs that can come up: loaded ones, and what is left of them when profiles are dropped. -/
inductive Reachable (files : List (String × String)) : Catalog → Prop
  | loaded {w : World} {c : Catalog} (h : (load files w).2 = .ok c) : Reachable files c
  | dropped {c : Catalog} (h : Reachable files c) (id : String) : Reachable files (c.drop id)

variable {c c' : Catalog}

theorem put_built {p : Profile} (hc : ∀ q ∈ c, q.Built) (hp : p.Built) :
    ∀ q ∈ c.put p, q.Built := by
  intro q hq
  unfold put at hq
  split at hq
  · obtain ⟨r, hr, rfl⟩ := List.mem_map.mp hq
    split
    · exact hp
    · exact hc r hr
  · rcases List.mem_append.mp hq with hq | hq
    · exact hc q hq
    · rwa [List.mem_singleton.mp hq]

theorem readPackaged_built {f : String × Entry} {p : Profile} (h : readPackaged f = .ok p) :
    p.Built := by
  rcases f with ⟨name, _ | _⟩
  · obtain ⟨doc, -, hbuild⟩ := bind_eq_ok.mp h
    exact ⟨name, doc, hbuild⟩
  · cases h

theorem packaged_built {found : List (String × Entry)} (h : packaged found = .ok c) :
    ∀ q ∈ c, q.Built := by
  refine foldlM_invariant (P := fun c => ∀ q ∈ c, q.Built) (fun c f c' hc hstep => ?_) (by simp) h
  obtain ⟨p, hp, hput⟩ := bind_eq_ok.mp hstep
  cases hput
  exact put_built hc (readPackaged_built hp)

theorem addUser_built {w : World} {paths : List PathName} (hc : ∀ q ∈ c, q.Built)
    (h : (addUser w paths c).2 = .ok c') : ∀ q ∈ c', q.Built := by
  induction paths generalizing c with
  | nil =>
    cases h
    exact hc
  | cons path paths ih =>
    rw [addUser] at h
    cases hp : readUser w path with
    | error e =>
      rw [hp] at h
      cases h
    | ok p =>
      rw [hp] at h
      obtain ⟨doc, -, hbuild⟩ := bind_eq_ok.mp hp
      exact ih (put_built hc ⟨_, doc, hbuild⟩) h

theorem load_built {files : List (String × String)} {w : World}
    (h : (load files w).2 = .ok c) : ∀ q ∈ c, q.Built := by
  unfold load loadFrom at h
  split at h
  · cases h
  next hpackaged =>
    split at h
    · cases h
    · exact addUser_built (packaged_built hpackaged) h

theorem Reachable.built {files : List (String × String)} (h : Reachable files c) :
    ∀ q ∈ c, q.Built := by
  induction h with
  | loaded h => exact load_built h
  | dropped _ id ih => exact fun q hq => ih q (List.mem_of_mem_filter hq)

def wanted : Option String → String
  | none | some "" => defaultId
  | some id => id

theorem wanted_some {id : String} (h : id ≠ "") : wanted (some id) = id := by
  unfold wanted
  split
  · cases ‹some id = none›
  next hid => exact absurd (Option.some.inj hid) h
  next hid => exact (Option.some.inj hid).symm

theorem wanted_ne_empty (id : Option String) : wanted id ≠ "" := by
  rcases id with _ | id
  · exact (by decide : defaultId ≠ "")
  · by_cases h : id = ""
    · subst h
      exact (by decide : defaultId ≠ "")
    · rwa [wanted_some h]

theorem resolve_eq_ok {id : Option String} {p : Profile} :
    c.resolve id = .ok p ↔ c.find? (·.id == wanted id) = some p := by
  unfold resolve
  dsimp only
  split
  next q hq =>
    have hq : c.find? (·.id == wanted id) = some q := hq
    rw [hq, Except.ok.injEq, Option.some.injEq]
  next hnone =>
    have hnone : c.find? (·.id == wanted id) = none := hnone
    rw [hnone]
    exact iff_of_false nofun nofun

theorem resolve_eq_error {id : Option String} {e : Failure} : c.resolve id = .error e ↔
    wanted id ∉ c.map (·.id) ∧ e = .unknownProfile (wanted id) c.ids := by
  have hnone : c.find? (·.id == wanted id) = none ↔ wanted id ∉ c.map (·.id) := by
    rw [List.find?_eq_none, List.mem_map]
    simp
  rw [← hnone]
  unfold resolve
  dsimp only
  split
  next p hp =>
    have hp : c.find? (·.id == wanted id) = some p := hp
    rw [hp]
    exact iff_of_false nofun nofun
  next hnone =>
    have hnone : c.find? (·.id == wanted id) = none := hnone
    rw [Except.error.injEq, and_iff_right hnone]
    exact eq_comm

theorem mem_of_resolve {id : Option String} {p : Profile} (h : c.resolve id = .ok p) : p ∈ c :=
  List.mem_of_find?_eq_some (resolve_eq_ok.mp h)

theorem resolve_resolved {id : Option String} {p : Profile} (h : c.resolve id = .ok p) :
    c.resolve (some p.id) = .ok p := by
  rw [resolve_eq_ok] at h ⊢
  have hid : p.id = wanted id := by simpa using List.find?_some h
  rw [hid, wanted_some (wanted_ne_empty id), h]

theorem Reachable.setup_frames {files : List (String × String)} (h : Reachable files c)
    {id : Option String} {p : Profile} (hp : c.resolve id = .ok p) :
    ∀ i ∈ p.setup, ∃ data, i.frame = .ok data := by
  intro i hi
  obtain ⟨source, doc, hbuild⟩ := h.built p (mem_of_resolve hp)
  obtain ⟨s, -, hframe⟩ := Instruction.frame_writable (Profile.setup_writable hbuild i hi)
  exact ⟨_, hframe⟩

def tinyFile : String × String := ("tiny.yaml", "{id: tiny, name: Tiny, serial: {}}")

theorem exists_tiny : ∃ c p, Reachable [tinyFile] c ∧ c.resolve (some "tiny") = .ok p := by
  have hloads : ((load [tinyFile] {}).2.toOption.bind fun c =>
      (c.resolve (some "tiny")).toOption).isSome = true := by
    decide +kernel
  cases hc : (load [tinyFile] {}).2 with
  | error e =>
    rw [hc] at hloads
    cases hloads
  | ok c =>
    rw [hc] at hloads
    cases hp : c.resolve (some "tiny") with
    | error e =>
      simp [Except.toOption, hp] at hloads
    | ok p => exact ⟨c, p, .loaded hc, hp⟩

end Catalog

end PenPlotter
