import PenPlotter.Job.Load
import PenPlotter.Proofs.Job.Announced
import PenPlotter.Proofs.Profile.Declared
import PenPlotter.Proofs.Profile.Sources
import PenPlotter.Proofs.World.Document
/-! # Failures that are not announced

Reading fails in ways that the program announces, and in others that it hands on. The others come from the
bytes and the single values of files, from numbers that a document can hold and a profile or a message
cannot, and from the user's folders. Of several files the first that gives nothing decides.
-/
namespace PenPlotter
open Text

variable {α β : Type}

def Stray (r : Except Failure α) : Prop := ∃ e, r = .error e ∧ e.declared = false

theorem not_stray_ok (a : α) : ¬ Stray (.ok a : Except Failure α) := nofun

theorem stray_error {e : Failure} : Stray (.error e : Except Failure α) ↔ e.declared = false := by
  constructor
  · rintro ⟨_, ⟨⟩, h⟩
    exact h
  · intro h
    exact ⟨e, rfl, h⟩

theorem stray_bind {r : Except Failure α} {f : α → Except Failure β} :
    Stray (r >>= f) ↔ Stray r ∨ ∃ a, r = .ok a ∧ Stray (f a) := by
  simp only [Stray, bind_eq_error]
  constructor
  · rintro ⟨e, h | ⟨a, ha, h⟩, he⟩
    · exact .inl ⟨e, h, he⟩
    · exact .inr ⟨a, ha, e, h, he⟩
  · rintro (⟨e, h, he⟩ | ⟨a, ha, e, h, he⟩)
    · exact ⟨e, .inl h, he⟩
    · exact ⟨e, .inr ⟨a, ha, h⟩, he⟩

theorem stray_map {r : Except Failure α} {f : α → β} : Stray (r.map f) ↔ Stray r := by
  cases r with
  | error e => exact stray_error.trans stray_error.symm
  | ok a => exact iff_of_false (not_stray_ok _) (not_stray_ok _)

/-- Every fault is handed on. -/
theorem stray_fault {r : Except Fault α} : Stray (r.mapError .fault) ↔ ¬ ∃ a, r = .ok a := by
  cases r with
  | error f => exact iff_of_true ⟨_, rfl, rfl⟩ nofun
  | ok a => exact iff_of_false (not_stray_ok a) (not_not_intro ⟨a, rfl⟩)

/-- A step for each value strays where one of the steps does and all before it have a result. -/
theorem stray_mapM {f : α → Except Failure β} {xs : List α} :
    Stray (xs.mapM f) ↔ ∃ before x after, xs = before ++ x :: after ∧
      (∀ y ∈ before, ∃ b, f y = .ok b) ∧ Stray (f x) := by
  constructor
  · induction xs with
    | nil => exact fun h => absurd h (not_stray_ok _)
    | cons x xs ih =>
      rw [List.mapM_cons, stray_bind]
      rintro (hx | ⟨b, hb, h⟩)
      · exact ⟨[], x, xs, rfl, nofun, hx⟩
      · rcases stray_bind.mp h with hxs | ⟨bs, -, hok⟩
        · obtain ⟨before, y, after, rfl, hbefore, hy⟩ := ih hxs
          exact ⟨x :: before, y, after, rfl, List.forall_mem_cons.mpr ⟨⟨b, hb⟩, hbefore⟩, hy⟩
        · exact absurd hok (not_stray_ok _)
  · rintro ⟨before, x, after, rfl, hbefore, e, hx, he⟩
    exact ⟨e, mapM_eq_error hbefore hx, he⟩

/-! ## Documents -/

inductive Spoiled (content : Bytes) : Prop
  | bytes {failure : Utf8.Failure} (h : Utf8.decode content = .error failure)
  | value {text : List Char} {f : Fault} (htext : Utf8.decode content = .ok text)
      (h : Yaml.read (unifyNewlines text) = .error (.fault f))

variable {role : DocumentRole} {source : String} {w : World} {p : PathName} {doc : Value}

theorem Declared.not_stray {r : Except Failure Value} (h : Declared role source r) : ¬ Stray r := by
  cases h with
  | mapping entries => exact not_stray_ok _
  | _ => simp [stray_error, Failure.declared]

theorem documentOfText_stray_iff {text : List Char} :
    Stray (documentOfText role source text) ↔ ∃ f, Yaml.read text = .error (.fault f) := by
  constructor
  · intro h
    by_contra hnone
    exact ((documentOfText_declared_iff text).mpr (not_exists.mp hnone)).not_stray h
  · rintro ⟨f, hf⟩
    unfold documentOfText
    rw [hf]
    exact ⟨_, rfl, rfl⟩

theorem documentOfBytes_stray_iff {content : Bytes} :
    Stray (documentOfBytes role source content) ↔ Spoiled content := by
  unfold documentOfBytes
  cases htext : Utf8.decode content with
  | error failure => exact iff_of_true ⟨_, rfl, rfl⟩ (.bytes htext)
  | ok text =>
    refine documentOfText_stray_iff.trans ⟨fun ⟨f, hf⟩ => .value htext hf, fun h => ?_⟩
    cases h with
    | bytes h => cases htext.symm.trans h
    | value htext' h =>
      cases htext.symm.trans htext'
      exact ⟨_, h⟩

inductive World.Spoils (w : World) (p : PathName) : Prop
  | name (h : hasNul p = true)
  | file {content : Bytes} (hread : w.read p = .ok content) (h : Spoiled content)

theorem World.document_stray_iff : Stray (w.document role p) ↔ w.Spoils p := by
  unfold document
  cases hnul : hasNul p with
  | true => exact iff_of_true ⟨_, rfl, rfl⟩ (.name hnul)
  | false =>
    cases hread : w.read p with
    | error problem =>
      refine iff_of_false (fun h => absurd (stray_error.mp h) (by simp [Failure.declared])) ?_
      rintro (h | ⟨hread', -⟩)
      · simp [hnul] at h
      · cases hread.symm.trans hread'
    | ok content =>
      refine documentOfBytes_stray_iff.trans ⟨.file hread, ?_⟩
      rintro (h | ⟨hread', h⟩)
      · simp [hnul] at h
      · cases hread.symm.trans hread'
        exact h

/-! ## Jobs and profiles -/

/-- A file that spoils its document, or a document whose first broken rule cannot be told. -/
inductive Job.Strays (w : World) (p : PathName) : Prop
  | file (h : w.Spoils p)
  | untold {doc : Value} {f : Fault} (hdoc : w.document .job p = .ok doc)
      (h : Schema.firstBreach? schema doc = some (.error f))

theorem Job.Announced.not_stray {r : Except Failure (List Command)} (h : Announced source r) :
    ¬ Stray r := by
  cases h with
  | built cs => exact not_stray_ok cs
  | refused flaw => simp [stray_error, Failure.declared]

theorem Job.build_stray_iff :
    Stray (build source doc) ↔ ∃ f, Schema.firstBreach? schema doc = some (.error f) := by
  constructor
  · intro h
    rcases build_announced_or source doc with hannounced | ⟨f, -, hbreach, -⟩
    · exact absurd h hannounced.not_stray
    · exact ⟨f, hbreach⟩
  · rintro ⟨f, hf⟩
    rw [build, Schema.check, hf]
    exact ⟨_, rfl, rfl⟩

theorem Job.load_stray_iff : Stray (load w p) ↔ Job.Strays w p := by
  unfold load
  rw [stray_bind, World.document_stray_iff]
  simp only [build_stray_iff]
  constructor
  · rintro (h | ⟨doc, hdoc, f, h⟩)
    · exact .file h
    · exact .untold hdoc h
  · rintro (h | ⟨hdoc, h⟩)
    · exact .inl h
    · exact .inr ⟨_, hdoc, _, h⟩

/-- A document that the schema accepts with a number that a profile cannot have, or one whose first broken
rule cannot be told. -/
inductive Profile.Unbuildable (doc : Value) : Prop
  | number (haccepts : Schema.accepts schema doc = true) (h : ¬ Convertible doc)
  | untold {f : Fault} (h : Schema.firstBreach? schema doc = some (.error f))

theorem Profile.build_stray_iff : Stray (build source doc) ↔ Unbuildable doc := by
  cases hbreach : Schema.firstBreach? schema doc with
  | none =>
    have haccepts : Schema.accepts schema doc = true := by simp [Schema.accepts, hbreach]
    rw [build_of_accepts hbreach, stray_fault, ofDocument_iff haccepts]
    refine ⟨.number haccepts, fun h => ?_⟩
    cases h with
    | number _ h => exact h
    | untold h => cases hbreach.symm.trans h
  | some b =>
    have hrejects : ¬ Schema.accepts schema doc = true := by simp [Schema.accepts, hbreach]
    rcases b with f | violation
    · rw [build_of_untold hbreach]
      exact iff_of_true ⟨_, rfl, rfl⟩ (.untold hbreach)
    · rw [build_of_breach hbreach, stray_error]
      refine iff_of_false (by simp [Failure.declared]) fun h => ?_
      cases h with
      | number haccepts _ => exact hrejects haccepts
      | untold h => cases hbreach.symm.trans h

namespace Catalog

/-! ## Loading the profiles -/

def Source.document (w : World) : Source → Except Failure Value
  | packaged (name, .file content) => documentOfBytes .profile name content
  | packaged (name, .folder) => .error (.document ⟨.profile, name, .unreadable ⟨.isDirectory, name⟩⟩)
  | user p => w.document .profile p

inductive Source.Strays (w : World) : Source → Prop
  | packaged {name : String} {content : Bytes} (h : Spoiled content) :
      Strays w (.packaged (name, .file content))
  | user {p : PathName} (h : w.Spoils p) : Strays w (.user p)
  | document {s : Source} {doc : Value} (hdoc : s.document w = .ok doc) (h : Profile.Unbuildable doc) :
      Strays w s

theorem Source.read_eq (s : Source) :
    ∃ name, s.read w = s.document w >>= fun doc => Profile.build name doc := by
  cases s with
  | packaged f =>
    rcases f with ⟨name, content | -⟩
    · exact ⟨name, rfl⟩
    · exact ⟨name, rfl⟩
  | user p => exact ⟨p.text, rfl⟩

theorem Source.read_stray_iff {s : Source} : Stray (s.read w) ↔ s.Strays w := by
  obtain ⟨name, hread⟩ := s.read_eq (w := w)
  rw [hread, stray_bind]
  simp only [Profile.build_stray_iff]
  constructor
  · rintro (h | ⟨doc, hdoc, h⟩)
    · cases s with
      | packaged f =>
        rcases f with ⟨name, content | -⟩
        · exact .packaged (documentOfBytes_stray_iff.mp h)
        · cases stray_error.mp h
      | user p => exact .user (World.document_stray_iff.mp h)
    · exact .document hdoc h
  · intro h
    cases h with
    | packaged h => exact .inl (documentOfBytes_stray_iff.mpr h)
    | user h => exact .inl (World.document_stray_iff.mpr h)
    | document hdoc h => exact .inr ⟨_, hdoc, h⟩

/-- What keeps the profiles from being loaded and is not announced: the first source that gives no profile,
or the user's folders. -/
inductive Strays (found : List (String × Entry)) (w : World) : Prop
  | packaged {before after : List (String × Entry)} {f : String × Entry}
      (hfiles : packagedFiles found = before ++ f :: after)
      (hbefore : ∀ g ∈ before, ∃ p, readPackaged g = .ok p) (h : (Source.packaged f).Strays w)
  | folders {c : Catalog} {e : Failure} (hpackaged : packaged found = .ok c) (h : userFiles w = .error e)
  | user {c : Catalog} {before after : List PathName} {p : PathName}
      (hpackaged : packaged found = .ok c) (hfiles : userFiles w = .ok (before ++ p :: after))
      (hbefore : ∀ q ∈ before, ∃ r, readUser w q = .ok r) (h : (Source.user p).Strays w)

theorem folder_stray {name : String} {inHome : List String} {e : Failure}
    (h : folder w name inHome = .error e) : e.declared = false := by
  unfold folder World.homeFolder at h
  split at h
  · cases h
  · dsimp only at h
    split at h
    · cases h
      rfl
    · cases h

theorem filesIn_stray {e : Failure} (h : filesIn w p = .error e) : e.declared = false := by
  unfold filesIn at h
  split at h
  · cases h
    rfl
  · cases h

theorem userFiles_stray {e : Failure} (h : userFiles w = .error e) : e.declared = false := by
  rcases bind_eq_error.mp h with h | ⟨config, -, h⟩
  · exact folder_stray h
  rcases bind_eq_error.mp h with h | ⟨data, -, h⟩
  · exact folder_stray h
  rcases bind_eq_error.mp h with h | ⟨first, -, h⟩
  · exact filesIn_stray h
  rcases bind_eq_error.mp h with h | ⟨second, -, h⟩
  · exact filesIn_stray h
  · cases h

theorem packaged_stray_iff (found : List (String × Entry)) :
    Stray (packaged found) ↔ ∃ before f after, packagedFiles found = before ++ f :: after ∧
      (∀ g ∈ before, ∃ p, readPackaged g = .ok p) ∧ (Source.packaged f).Strays w := by
  rw [packaged_eq, stray_map, stray_mapM]
  simp only [← Source.read_stray_iff]
  rfl

theorem addUser_stray_iff {paths : List PathName} {c : Catalog} :
    Stray (addUser w paths c).2 ↔ ∃ before p after, paths = before ++ p :: after ∧
      (∀ q ∈ before, ∃ r, readUser w q = .ok r) ∧ (Source.user p).Strays w := by
  rw [addUser_catalog, stray_map, stray_mapM]
  simp only [← Source.read_stray_iff]
  rfl

theorem loadFrom_stray_iff {found : List (String × Entry)} :
    Stray (loadFrom found w).2 ↔ Strays found w := by
  have hpackagedStray := packaged_stray_iff (w := w) found
  unfold loadFrom
  cases hpackaged : packaged found with
  | error e =>
    rw [hpackaged] at hpackagedStray
    refine hpackagedStray.trans ⟨fun ⟨_, _, _, hfiles, hbefore, h⟩ => .packaged hfiles hbefore h, ?_⟩
    intro h
    cases h with
    | packaged hfiles hbefore h => exact ⟨_, _, _, hfiles, hbefore, h⟩
    | folders hok _ => cases hpackaged.symm.trans hok
    | user hok _ _ _ => cases hpackaged.symm.trans hok
  | ok c =>
    rw [hpackaged] at hpackagedStray
    cases hpaths : userFiles w with
    | error e => exact iff_of_true ⟨e, rfl, userFiles_stray hpaths⟩ (.folders hpackaged hpaths)
    | ok paths =>
      refine addUser_stray_iff.trans ⟨?_, fun h => ?_⟩
      · rintro ⟨before, p, after, rfl, hbefore, h⟩
        exact .user hpackaged hpaths hbefore h
      · cases h with
        | packaged hfiles hbefore h =>
          exact absurd (hpackagedStray.mpr ⟨_, _, _, hfiles, hbefore, h⟩) (not_stray_ok c)
        | folders _ h => cases hpaths.symm.trans h
        | user _ hfiles hbefore h =>
          cases hpaths.symm.trans hfiles
          exact ⟨_, _, _, rfl, hbefore, h⟩

end Catalog

end PenPlotter
