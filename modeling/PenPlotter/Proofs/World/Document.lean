import PenPlotter.Proofs.Yaml.Building
import PenPlotter.Proofs.Yaml.Events
import PenPlotter.Proofs.Yaml.Tokens
import PenPlotter.World.Document
/-! # How reading a document ends

A document is a mapping, or there is an error that names its file and says that it cannot be read, is
malformed, has a key twice or is no mapping. A fault of a single value is none of these. Faults come
from the file's name, from bytes that are no text, and from the parts of a text that `Faulty` lists,
one of which are collections too many within each other.
-/
namespace PenPlotter
open Text

namespace Yaml

/-- The parts of a text that keep it from having a value: an escape or a version among its tokens, more
collections within each other than there is room for, or something in the graph of its nodes. -/
inductive Faulty (text : List Char) (f : Fault) : Prop
  | token (h : Untokened text f)
  | nested (h : Overfull (events (tokens text)).1) (hf : f = .tooDeep "")
  | value {g : Graph} {root : Nat} (hnode : node? (events (tokens text)) = .ok (some (g, root)))
      (h : g.Blames f)

theorem read_fault {text : List Char} {f : Fault} (h : read text = .error (.fault f)) :
    Faulty text f := by
  unfold read at h
  split at h
  · cases h
  · cases hnode : node? (events (tokens text)) with
    | error e =>
      rw [hnode] at h
      cases h
      rcases node?_fault hnode with hevents | ⟨hf, hfull⟩
      · exact .token (tokens_fault (events_fault hevents))
      · exact .nested hfull hf
    | ok document =>
      rw [hnode] at h
      rcases document with _ | ⟨g, root⟩
      · cases h
      · exact .value hnode (Graph.value_fault h)

end Yaml

inductive Declared (role : DocumentRole) (source : String) : Except Failure Value → Prop
  | mapping (entries : List (Value × Value)) : Declared role source (.ok (.map entries))
  | unreadable (error : FileError) :
      Declared role source (.error (.document ⟨role, source, .unreadable error⟩))
  | malformed (stage : Stage) :
      Declared role source (.error (.document ⟨role, source, .malformed stage⟩))
  | duplicateKey (detail : List Char) :
      Declared role source (.error (.document ⟨role, source, .duplicateKey detail⟩))
  | notAMapping : Declared role source (.error (.document ⟨role, source, .notAMapping⟩))

variable {role : DocumentRole} {source : String}

theorem not_declared_fault {f : Fault} : ¬ Declared role source (.error (.fault f)) := nofun

theorem documentOfText_declared_iff (text : List Char) :
    Declared role source (documentOfText role source text) ↔
      ∀ f, Yaml.read text ≠ .error (.fault f) := by
  unfold documentOfText
  cases Yaml.read text with
  | ok doc =>
    refine ⟨fun _ f => nofun, fun _ => ?_⟩
    dsimp only
    split
    · exact .mapping _
    · exact .notAMapping
  | error flaw =>
    cases flaw with
    | malformed stage => exact ⟨fun _ f => nofun, fun _ => .malformed stage⟩
    | duplicateKey key mark => exact ⟨fun _ f => nofun, fun _ => .duplicateKey _⟩
    | fault f => exact ⟨fun h => (not_declared_fault h).elim, fun h => (h f rfl).elim⟩

theorem documentOfBytes_declared_iff (content : Bytes) :
    Declared role source (documentOfBytes role source content) ↔
      ∃ text, Utf8.decode content = .ok text ∧
        ∀ f, Yaml.read (unifyNewlines text) ≠ .error (.fault f) := by
  unfold documentOfBytes
  cases Utf8.decode content with
  | ok text =>
    refine (documentOfText_declared_iff _).trans ⟨fun h => ⟨text, rfl, h⟩, ?_⟩
    rintro ⟨_, ⟨⟩, h⟩
    exact h
  | error failure =>
    refine ⟨fun h => (not_declared_fault h).elim, ?_⟩
    rintro ⟨_, h, _⟩
    cases h

namespace World

end World

end PenPlotter
