import PenPlotter.Proofs.Yaml.Flaw
import PenPlotter.Yaml.Lexer
/-! # Faults of tokens

Reading a token never leaves the text: what is behind a cursor is the end of what was behind it before.
Two kinds of tokens can meet a fault, an escape whose number is no code point and a version whose
number cannot be read. Both are named by the part of the text that they stand in.
-/
namespace PenPlotter.Yaml
open Text

inductive Untokened (text : List Char) : Fault → Prop
  | escape {letter : Char} {digits : List Char} {f : Fault}
      (h : '\\' :: letter :: digits <:+: text) (hletter : codeLength? letter = some digits.length)
      (hdigits : digits.all (Literal.isDigit 16) = true)
      (hf : codePoint (Literal.value 16 digits) = .error (.fault f)) : Untokened text f
  | version {digits : List Char} {f : Fault} (h : digits <:+: text)
      (hdigits : digits.all Char.isDigit = true)
      (hf : Literal.int 10 (codes digits) = .error f) : Untokened text f

namespace Cursor
variable {text : List Char} {c : Cursor}

def Within (text : List Char) (c : Cursor) : Prop := c.rest <:+ text

theorem Within.skip (h : c.Within text) (n : Nat) : (c.skip n).Within text :=
  (List.drop_suffix n c.rest).trans h

theorem Within.next (h : c.Within text) : c.next.Within text := h.skip 1

theorem Within.skipWhile (h : c.Within text) (p : Char → Bool) : (c.skipWhile p).Within text :=
  h.skip _

theorem Within.lineBreak (h : c.Within text) {b : Char} {c' : Cursor}
    (hb : c.lineBreak = some (b, c')) : c'.Within text := by
  unfold Cursor.lineBreak at hb
  split at hb
  · split at hb
    · cases hb
      exact h.next
    · cases hb
  · cases hb

theorem Within.infix_of_prefix (h : c.Within text) {s : List Char} (hs : s <+: c.rest) :
    s <:+: text :=
  hs.isInfix.trans h.isInfix

/-- What a step of reading on yields: a cursor within the text, or a fault of the text. -/
abbrev Reads {α : Type} (text : List Char) (x : Except Flaw (α × Cursor)) : Prop :=
  Yields (Untokened text) (fun p => p.2.Within text) x

theorem Within.restOfLine (h : c.Within text) :
    Yields (Untokened text) (Within text) c.restOfLine := by
  unfold Cursor.restOfLine
  dsimp only
  have hspaces : (c.skipWhile (· == ' ')).Within text := h.skipWhile _
  have hcomment : (if (c.skipWhile (· == ' ')).peek == some '#'
      then (c.skipWhile (· == ' ')).skipWhile (fun x => !isBreak x)
      else c.skipWhile (· == ' ')).Within text := by
    split
    · exact hspaces.skipWhile _
    · exact hspaces
  generalize (if (c.skipWhile (· == ' ')).peek == some '#'
    then (c.skipWhile (· == ' ')).skipWhile (fun x => !isBreak x)
    else c.skipWhile (· == ' ')) = d at hcomment ⊢
  split
  · refine .ok ?_
    split
    next hbreak => exact hcomment.lineBreak hbreak
    next => exact hcomment
  · exact .malformed

end Cursor

variable {text : List Char} {c : Cursor}
open Cursor

/-! ## Quoted scalars -/

theorem quotedBreaks_reads (h : c.Within text) (seen : List Char) (fuel : Nat) :
    Reads text (quotedBreaks seen fuel c) := by
  induction fuel generalizing seen c with
  | zero => exact .ok h
  | succ fuel ih =>
    rw [quotedBreaks]
    split
    · exact .malformed
    · dsimp only
      split
      next hbreak => exact ih ((h.skipWhile _).lineBreak hbreak) _
      next => exact .ok (h.skipWhile _)

/-- The code point of an escape with all its digits. -/
theorem codePoint_yields (h : c.Within text) {letter : Char} {xs : List Char} {n : Nat}
    (hrest : c.rest = '\\' :: letter :: xs) (hletter : codeLength? letter = some n)
    (hgood : ¬ ((xs.take n).length < n ∨ (!(xs.take n).all (Literal.isDigit 16)) = true)) :
    Yields (Untokened text) (fun _ => True) (codePoint (Literal.value 16 (xs.take n))) := by
  have hlength : (xs.take n).length = n := by
    have hle : ¬ (xs.take n).length < n := fun hlt => hgood (.inl hlt)
    have htake := List.length_take_le n xs
    omega
  have hhex : (xs.take n).all (Literal.isDigit 16) = true := by
    cases hall : (xs.take n).all (Literal.isDigit 16) with
    | true => rfl
    | false => exact absurd (.inr (by rw [hall]; rfl)) hgood
  have hprefix : '\\' :: letter :: xs.take n <+: c.rest := by
    rw [hrest]
    exact ⟨xs.drop n, by simp⟩
  have hlast : codeLength? letter = some (xs.take n).length := by rw [hlength, hletter]
  have hself := Yields.self (codePoint (Literal.value 16 (xs.take n)))
  exact (hself.mono fun f hf => .escape (h.infix_of_prefix hprefix) hlast hhex hf).imp
    fun _ _ => trivial

theorem rest_of_peek {x : Char} (h : c.peek = some x) : ∃ xs, c.rest = x :: xs ∧ c.next.rest = xs := by
  unfold peek at h
  cases hrest : c.rest with
  | nil =>
    rw [hrest] at h
    cases h
  | cons y ys =>
    rw [hrest] at h
    cases h
    refine ⟨ys, rfl, ?_⟩
    change c.rest.drop 1 = ys
    rw [hrest]
    rfl

/-- An escape is read behind its backslash. -/
theorem escape_reads (h : c.Within text) (hslash : c.peek = some '\\') :
    Reads text (escape c.next) := by
  unfold escape
  split
  · exact .malformed
  next x hx =>
    split
    · exact .ok h.next.next
    next n _ hn =>
      obtain ⟨ys, hrest, hys⟩ := rest_of_peek hslash
      obtain ⟨xs, hx, hxs⟩ := rest_of_peek hx
      rw [← hys, hx] at hrest
      dsimp only
      rw [hxs]
      split
      · exact .malformed
      next hgood =>
        exact (codePoint_yields h hrest hn hgood).bind fun _ _ => .ok (h.next.skip _)
    · split
      next hbreak =>
        exact (quotedBreaks_reads (h.next.lineBreak hbreak) _ _).bind fun ⟨breaks, c⟩ hc => .ok hc
      next => exact .malformed

theorem quotedText_reads (double : Bool) (fuel : Nat) (seen : List Code) (h : c.Within text) :
    Reads text (quotedText double fuel seen c) := by
  induction fuel generalizing seen c with
  | zero => exact .malformed
  | succ fuel ih =>
    rw [quotedText]
    split
    · exact .malformed
    next x xs hrest =>
      split
      · have hspan : (c.span isSpaceOrTab).2.Within text := h.skip _
        dsimp only
        split
        next hbreak =>
          exact (quotedBreaks_reads (hspan.lineBreak hbreak) _ _).bind fun ⟨further, c⟩ hc =>
            ih _ hc
        next => exact ih _ hspan
      · split
        next hslash =>
          have hx : x = '\\' := by simp at hslash; exact hslash.2
          have hpeek : c.peek = some '\\' := by rw [peek, hrest, hx, List.head?_cons]
          exact (escape_reads h hpeek).bind fun ⟨r, c⟩ hc => ih _ hc
        next =>
          generalize (if double then '"' else '\'') = quote
          split
          · split
            · exact ih _ (h.skip 2)
            · exact .ok h.next
          · exact ih _ h.next

theorem quotedScalar_reads (double : Bool) (h : c.Within text) :
    Reads text (quotedScalar double c) :=
  quotedText_reads double _ [] h.next

/-! ## Block scalars -/

theorem chomping?_within (h : c.Within text) {chomping : Chomping} {c' : Cursor}
    (hc : chomping? c = some (chomping, c')) : c'.Within text := by
  unfold chomping? at hc
  split at hc
  · cases hc
    exact h.next
  · cases hc
    exact h.next
  · cases hc

theorem increment?_reads (h : c.Within text) : Reads text (increment? c) := by
  unfold increment?
  split
  · split
    · exact .malformed
    · split
      · exact .ok h.next
      · exact .ok h
  · exact .ok h

theorem blockHeader_reads (h : c.Within text) :
    Yields (Untokened text) (fun p => p.2.2.Within text) (blockHeader c) := by
  have hrest (chomping : Chomping) (increment : Option Nat) {c : Cursor} (hc : c.Within text) :
      Yields (Untokened text) (fun p => p.2.2.Within text) (do
        if !endsWord c.peek then throw (.malformed .tokens)
        return (chomping, increment, ← c.restOfLine)) := by
    split
    · exact .malformed
    · exact hc.restOfLine.bind fun c hc => .ok hc
  unfold blockHeader
  split
  next hchomping =>
    exact (increment?_reads (chomping?_within h hchomping)).bind fun ⟨increment, c⟩ hc =>
      hrest _ increment hc
  next =>
    refine (increment?_reads h).bind fun ⟨increment, c⟩ hc => ?_
    dsimp only
    split
    next hchomping => exact hrest _ _ (chomping?_within hc hchomping)
    next => exact hrest _ _ hc

theorem leadingLines_within (fuel : Nat) (seen : List Char) (widest : Nat) (h : c.Within text) :
    (leadingLines seen widest fuel c).2.2.Within text := by
  induction fuel generalizing seen widest c with
  | zero => exact h
  | succ fuel ih =>
    rw [leadingLines]
    split
    · exact ih _ _ h.next
    · split
      next hbreak => exact ih _ _ (h.lineBreak hbreak)
      next => exact h

theorem skipIndent_within (indent fuel : Nat) (h : c.Within text) :
    (skipIndent indent fuel c).Within text := by
  induction fuel generalizing c with
  | zero => exact h
  | succ fuel ih =>
    rw [skipIndent]
    split
    · exact ih h.next
    · exact h

theorem emptyLines_within (indent fuel : Nat) (seen : List Char) (h : c.Within text) :
    (emptyLines indent seen fuel c).2.Within text := by
  induction fuel generalizing seen c with
  | zero => exact h
  | succ fuel ih =>
    have hindent := skipIndent_within indent indent h
    rw [emptyLines]
    split
    next hbreak => exact ih _ (hindent.lineBreak hbreak)
    next => exact hindent

theorem blockLines_within (folded : Bool) (indent fuel : Nat) (seen : List Char)
    (ending : Option Char) (further : List Char) (h : c.Within text) :
    (blockLines folded indent fuel seen ending further c).2.2.2.Within text := by
  induction fuel generalizing seen ending further c with
  | zero => exact h
  | succ fuel ih =>
    rw [blockLines]
    split
    · exact h
    · have hline : (c.span fun x => !isBreak x).2.Within text := h.skip _
      generalize (c.span fun x => !isBreak x) = span at hline ⊢
      rcases span with ⟨line, d⟩
      dsimp only at hline ⊢
      split
      next b e hbreak =>
        have hempty := emptyLines_within indent (e.size + 1) [] (hline.lineBreak hbreak)
        dsimp only
        split
        · exact ih _ _ _ hempty
        · exact hempty
      next =>
        have hempty := emptyLines_within indent (d.size + 1) [] hline
        dsimp only
        split
        · exact ih _ _ _ hempty
        · exact hempty

theorem blockScalar_reads (folded : Bool) (indent : Int) (h : c.Within text) :
    Reads text (blockScalar folded indent c) := by
  unfold blockScalar
  refine (blockHeader_reads h).bind fun ⟨chomping, increment, c⟩ hc => ?_
  dsimp only
  generalize c.size + 1 = fuel
  refine .ok (blockLines_within folded _ _ _ _ _ ?_)
  cases increment with
  | none => exact leadingLines_within _ _ _ hc
  | some n => exact emptyLines_within _ _ _ hc

/-! ## Plain scalars -/

theorem plainBreaks_within (fuel : Nat) (seen : List Char) (h : c.Within text) :
    (plainBreaks seen fuel c).2.Within text := by
  induction fuel generalizing seen c with
  | zero => exact h
  | succ fuel ih =>
    rw [plainBreaks]
    split
    · exact ih _ h.next
    · split
      next => exact h
      next hbreak =>
        have hbehind := h.lineBreak hbreak
        split
        · exact hbehind
        · exact ih _ hbehind

theorem plainGap_within (h : c.Within text) : (plainGap c).2.2.Within text := by
  have hspan : (c.span (· == ' ')).2.Within text := h.skip _
  unfold plainGap
  dsimp only
  split
  next => exact hspan
  next b d hbreak =>
    have hbehind := hspan.lineBreak hbreak
    have hbreaks := plainBreaks_within (d.size + 1) [] hbehind
    split
    · exact hbehind
    · generalize plainBreaks [] (d.size + 1) d = breaks at hbreaks ⊢
      rcases breaks with ⟨further, e⟩
      cases further with
      | none => exact hbreaks
      | some further => exact hbreaks

theorem plainText_within (flow : Bool) (indent : Int) (fuel : Nat) (seen gap : List Char)
    (broke : Bool) (h : c.Within text) :
    (plainText flow indent fuel seen gap broke c).2.1.Within text := by
  induction fuel generalizing seen gap broke c with
  | zero => exact h
  | succ fuel ih =>
    rw [plainText]
    dsimp only
    split
    · exact h
    · have hgap := plainGap_within (h.skip (plainRun flow [] c.rest).length)
      split
      · exact hgap
      · exact ih _ _ _ hgap

theorem plain_within (flow : Bool) (indent : Int) (h : c.Within text) :
    (plain flow indent c).2.1.Within text := by
  have htext := plainText_within flow indent (c.size + 1) [] [] false h
  unfold plain
  generalize plainText flow indent (c.size + 1) [] [] false c = result at htext ⊢
  exact htext

end PenPlotter.Yaml
