import PenPlotter.Plot.Item
import PenPlotter.Proofs.Result
import PenPlotter.Proofs.Text.Separated
import PenPlotter.Proofs.Value.NumberText
/-! # The texts of commands

A command is two letters and a list of numbers, and its text is the letters with the texts of the
numbers behind them, commas between. A command whose numbers can be written has a text, and two such
commands have one text just where they are equal.
-/
namespace PenPlotter
open Text

namespace Command

def letters : Command → List Char
  | .defaults => ['D', 'F']
  | .initializePlotter | .selectPen _ => ['I', 'N']
  | .velocity _ => ['V', 'S']
  | .penUp => ['P', 'U']
  | .penDown => ['P', 'D']
  | .plot _ => ['P', 'A']

def numbers : Command → List Value
  | .selectPen v | .velocity v => [v]
  | .plot points => points.flatMap fun p => [p.x, p.y]
  | _ => []

def Numeric (c : Command) : Prop := ∀ v ∈ c.numbers, v.Numeric

theorem letters_length (c : Command) : c.letters.length = 2 := by
  cases c <;> rfl

end Command

/-- The texts of points are those of their numbers, two by two. -/
theorem points_text {points : List Point} {texts : List (List Char)}
    (h : (points.flatMap fun p => [p.x, p.y]).mapM Value.numberText = .ok texts) :
    ∃ pairs, points.mapM Point.text = .ok pairs ∧
      [','].intercalate pairs = [','].intercalate texts := by
  rw [mapM_eq_ok] at h
  induction points generalizing texts with
  | nil =>
    have htexts : texts = [] := by simpa using h.symm
    exact ⟨[], rfl, by rw [htexts]⟩
  | cons p points ih =>
    simp only [List.flatMap_cons, List.map_cons, List.cons_append, List.nil_append] at h
    rcases texts with _ | ⟨x, _ | ⟨y, texts⟩⟩
    · simp at h
    · simp at h
    · simp only [List.map_cons, List.cons.injEq] at h
      obtain ⟨hx, hy, hrest⟩ := h
      obtain ⟨pairs, hpairs, hjoin⟩ := ih hrest
      rw [mapM_eq_ok] at hpairs
      refine ⟨(x ++ ',' :: y) :: pairs, ?_, ?_⟩
      · rw [mapM_eq_ok, List.map_cons, List.map_cons, hpairs, Point.text, hx, hy]
        rfl
      · cases points with
        | nil =>
          have htexts : texts = [] := by simpa using hrest.symm
          have hnone : pairs = [] := by simpa using hpairs.symm
          rw [htexts, hnone, List.intercalate_singleton, List.intercalate_cons_cons,
            List.intercalate_singleton, List.append_assoc, List.singleton_append]
        | cons q points =>
          have htexts : texts ≠ [] := by
            rintro rfl
            simp at hrest
          have hsome : pairs ≠ [] := by
            rintro rfl
            simp at hpairs
          rw [intercalate_cons hsome, hjoin, intercalate_cons (List.cons_ne_nil _ _),
            intercalate_cons htexts, List.append_assoc, List.cons_append]

namespace Command
open Numeral

theorem text_of_numbers {c : Command} {texts : List (List Char)}
    (h : c.numbers.mapM Value.numberText = .ok texts) :
    c.text = .ok (c.letters ++ [','].intercalate texts) := by
  cases c with
  | selectPen v | velocity v =>
    rw [mapM_eq_ok] at h
    rcases texts with _ | ⟨t, _ | ⟨u, texts⟩⟩
    · simp [numbers] at h
    · simp only [numbers, List.map_cons, List.map_nil, List.cons.injEq, and_true] at h
      rw [text, h, List.intercalate_singleton]
      rfl
    · simp [numbers] at h
  | plot points =>
    obtain ⟨pairs, hpairs, hjoin⟩ := points_text h
    simp only [text, Point.chainText, hpairs, ← hjoin]
    rfl
  | _ =>
    cases h
    rfl

/-- Numbers and commas are all that stands behind a command's letters. -/
theorem mem_text {texts : List (List Char)} (hplain : ∀ t ∈ texts, Plain t) {c : Command} {x : Char}
    (h : x ∈ c.letters ++ [','].intercalate texts) :
    x ∈ c.letters ∨ x = ',' ∨ isMark x = true := by
  rcases List.mem_append.mp h with h | h
  · exact .inl h
  · rcases mem_intercalate h with h | ⟨t, ht, h⟩
    · exact .inr (.inl h)
    · exact .inr (.inr ((hplain t ht).2 x h))

/-- Commands of numbers have one text just where their letters and numbers agree. -/
theorem text_inj {c d : Command} (hc : c.Numeric) (hd : d.Numeric) :
    c.text = d.text ↔
      c.letters = d.letters ∧ c.numbers.map Value.written = d.numbers.map Value.written := by
  obtain ⟨ts, hts, htplain, -⟩ := Value.exists_texts hc
  obtain ⟨us, hus, huplain, -⟩ := Value.exists_texts hd
  rw [text_of_numbers hts, text_of_numbers hus, ← Value.texts_eq_iff hc hd hts hus]
  constructor
  · intro h
    -- All letters are two, and no text of a number has the comma that separates them.
    obtain ⟨hletters, hjoin⟩ := List.append_inj (Except.ok.inj h) (by simp [letters_length])
    refine ⟨hletters, intercalate_inj (fun t ht => ?_) (fun u hu => ?_) hjoin⟩
    · exact ⟨(htplain t ht).1, (htplain t ht).not_mem (by decide)⟩
    · exact ⟨(huplain u hu).1, (huplain u hu).not_mem (by decide)⟩
  · rintro ⟨hletters, rfl⟩
    rw [hletters]

end Command

end PenPlotter
