import PenPlotter.Proofs.Yaml.Scalars
/-! # A text without tokens

Every step of the lexer stays within the text, so a fault of the tokens is one of an escape or a
version in the text.
-/
namespace PenPlotter.Yaml
open Text Cursor

variable {text : List Char} {c : Cursor}

/-! ## Names, tags and directives -/

theorem word_reads (h : c.Within text) : Reads text (word c) := by
  unfold word
  dsimp only
  split
  · exact .malformed
  · exact .ok (h.skip _)

theorem anchorName_reads (h : c.Within text) : Reads text (anchorName c) := by
  unfold anchorName
  refine (word_reads h.next).bind fun ⟨name, c⟩ hc => ?_
  dsimp only
  split
  · exact .malformed
  · exact .ok hc

theorem uriBytes_reads (fuel : Nat) (seen : Bytes) (h : c.Within text) :
    Reads text (uriBytes seen fuel c) := by
  induction fuel generalizing seen c with
  | zero => exact .ok h
  | succ fuel ih =>
    rw [uriBytes]
    split
    · split
      · split
        · exact ih _ (h.skip 3)
        · exact .malformed
      · exact .malformed
    · exact .ok h

theorem uriText_reads (fuel : Nat) (seen : List Char) (h : c.Within text) :
    Reads text (uriText seen fuel c) := by
  induction fuel generalizing seen c with
  | zero => exact .ok h
  | succ fuel ih =>
    rw [uriText]
    split
    · split
      · refine (uriBytes_reads _ [] h).bind fun ⟨bytes, c⟩ hc => ?_
        dsimp only
        split
        · exact ih _ hc
        · exact .malformed
      · split
        · exact ih _ h.next
        · exact .ok h
    · exact .ok h

theorem tagUri_reads (h : c.Within text) : Reads text (tagUri c) := by
  unfold tagUri
  refine (uriText_reads _ [] h).bind fun ⟨uri, c⟩ hc => ?_
  dsimp only
  split
  · exact .malformed
  · exact .ok hc

theorem tagHandle_reads (h : c.Within text) : Reads text (tagHandle c) := by
  unfold tagHandle
  split
  · exact .malformed
  · split
    · exact .ok h.next
    · dsimp only
      split
      · exact .ok ((h.next.skip _).next)
      · exact .malformed

theorem tagToken_reads (h : c.Within text) : Reads text (tagToken c) := by
  have hend (handle : Option (List Char)) (suffix : List Char) {c : Cursor} (hc : c.Within text) :
      Reads text (do
        if !endsWord c.peek then throw (.malformed .tokens)
        return (TokenKind.tag handle suffix, c)) := by
    split
    · exact .malformed
    · exact .ok hc
  unfold tagToken
  dsimp only
  split
  · refine (tagUri_reads (h.skip 2)).bind fun ⟨uri, c⟩ hc => ?_
    dsimp only
    split
    · exact .malformed
    · exact hend none uri hc.next
  · split
    · exact hend none ['!'] h.next
    · split
      · refine (tagHandle_reads h).bind fun ⟨handle, c⟩ hc => ?_
        exact (tagUri_reads hc).bind fun ⟨uri, c⟩ hc => hend (some handle) uri hc
      · exact (tagUri_reads h.next).bind fun ⟨uri, c⟩ hc => hend (some ['!']) uri hc

theorem versionNumber_reads (h : c.Within text) : Reads text (versionNumber c) := by
  have hprefix : (c.rest.takeWhile Char.isDigit) <+: c.rest := List.takeWhile_prefix _
  have hdigits : (c.rest.takeWhile Char.isDigit).all Char.isDigit = true := List.all_takeWhile
  unfold versionNumber
  dsimp only [Cursor.span]
  split
  · exact .malformed
  · cases hint : Literal.int 10 (codes (c.rest.takeWhile Char.isDigit)) with
    | ok n => exact .ok (h.skip _)
    | error f => exact .fault (.version (h.infix_of_prefix hprefix) hdigits hint)

theorem skipSpaces_within (h : c.Within text) : (skipSpaces c).Within text := h.skipWhile _

theorem versionDirective_reads (h : c.Within text) : Reads text (versionDirective c) := by
  unfold versionDirective
  refine (versionNumber_reads (skipSpaces_within h)).bind fun ⟨major, c⟩ hc => ?_
  dsimp only
  split
  · exact .malformed
  · refine (versionNumber_reads hc.next).bind fun ⟨minor, c⟩ hc => ?_
    dsimp only
    split
    · exact .malformed
    · exact .ok hc

theorem handleDirective_reads (h : c.Within text) : Reads text (handleDirective c) := by
  unfold handleDirective
  refine (tagHandle_reads (skipSpaces_within h)).bind fun ⟨handle, c⟩ hc => ?_
  dsimp only
  split
  · exact .malformed
  · refine (tagUri_reads (skipSpaces_within hc)).bind fun ⟨expansion, c⟩ hc => ?_
    dsimp only
    split
    · exact .malformed
    · exact .ok hc

theorem directiveToken_reads (h : c.Within text) : Reads text (directiveToken c) := by
  have hrest (kind : TokenKind) {c : Cursor} (hc : c.Within text) :
      Reads text (do return (kind, ← c.restOfLine)) :=
    hc.restOfLine.bind fun c hc => .ok hc
  unfold directiveToken
  refine (word_reads h.next).bind fun ⟨name, c⟩ hc => ?_
  dsimp only
  split
  · exact .malformed
  · split
    · exact (versionDirective_reads hc).bind fun ⟨kind, c⟩ hc => hrest kind hc
    · split
      · exact (handleDirective_reads hc).bind fun ⟨kind, c⟩ hc => hrest kind hc
      · exact hrest .otherDirective (hc.skipWhile _)

namespace Lexer
variable {l : Lexer}

def Within (text : List Char) (l : Lexer) : Prop := l.cursor.Within text

abbrev Reads (text : List Char) (x : Result) : Prop := Yields (Untokened text) (Within text) x

theorem dropStale_reads (h : l.Within text) : Reads text l.dropStale := by
  unfold dropStale
  dsimp only
  split
  · exact .malformed
  · exact .ok h

theorem dropKey_reads (h : l.Within text) : Reads text l.dropKey := by
  unfold dropKey
  split
  · exact .malformed
  · exact .ok h

theorem saveKey_reads (h : l.Within text) : Reads text l.saveKey := by
  unfold saveKey
  split
  · exact (dropKey_reads h).bind fun l hl => .ok hl
  · exact .ok h

theorem unwindTo_within (column : Int) (outer : List Int) (h : l.Within text) :
    (unwindTo column outer l).Within text := by
  induction outer generalizing l with
  | nil => exact h
  | cons i outer ih =>
    rw [unwindTo]
    split
    · exact h
    · exact ih h

theorem unwind_within (column : Int) (h : l.Within text) : (l.unwind column).Within text := by
  unfold unwind
  split
  · exact h
  · exact unwindTo_within column l.outer h

theorem openBlock_within {column : Int} {l' : Lexer} (h : l.Within text)
    (hopen : l.openBlock column = some l') : l'.Within text := by
  unfold openBlock at hopen
  split at hopen
  · cases hopen
    exact h
  · cases hopen

theorem openHere_within (kind : TokenKind) (h : l.Within text) : (l.openHere kind).Within text := by
  unfold openHere
  cases hopen : l.openBlock l.column with
  | none => exact h
  | some opened => exact (openBlock_within h hopen : opened.Within text)

theorem skipBlanks_within (fuel : Nat) (h : l.Within text) : (l.skipBlanks fuel).Within text := by
  induction fuel generalizing l with
  | zero => exact h
  | succ fuel ih =>
    have hspaces : (l.cursor.skipWhile (· == ' ')).Within text := Cursor.Within.skipWhile h _
    rw [skipBlanks]
    generalize l.cursor.skipWhile (· == ' ') = c at hspaces ⊢
    have hcomment : (if c.peek == some '#' then c.skipWhile (fun x => !isBreak x)
        else c).Within text := by
      split
      · exact hspaces.skipWhile _
      · exact hspaces
    split
    next hbreak => exact ih (hcomment.lineBreak hbreak)
    next => exact hcomment

theorem skipByteOrderMark_within (h : l.Within text) : l.skipByteOrderMark.Within text := by
  unfold skipByteOrderMark
  split
  · exact Cursor.Within.next h
  · exact h

theorem indicator_within (n : Nat) (kind : TokenKind) (h : l.Within text) :
    (l.indicator n kind).Within text :=
  Cursor.Within.skip h n

theorem streamEnd_reads (h : l.Within text) : Reads text l.streamEnd :=
  (dropKey_reads (unwind_within _ h)).bind fun _ hl => .ok hl

theorem directive_reads (h : l.Within text) : Reads text l.directive :=
  (dropKey_reads (unwind_within _ h)).bind fun _ hl =>
    (directiveToken_reads hl).bind fun _ hc => .ok hc

theorem documentMark_reads (kind : TokenKind) (h : l.Within text) :
    Reads text (l.documentMark kind) :=
  (dropKey_reads (unwind_within _ h)).bind fun _ hl => .ok (indicator_within 3 kind hl)

theorem flowStart_reads (kind : TokenKind) (h : l.Within text) : Reads text (l.flowStart kind) :=
  (saveKey_reads h).bind fun _ hl => .ok (indicator_within 1 kind hl)

theorem flowEnd_reads (kind : TokenKind) (h : l.Within text) : Reads text (l.flowEnd kind) :=
  (dropKey_reads h).bind fun _ hl => .ok (indicator_within 1 kind hl)

theorem flowEntry_reads (h : l.Within text) : Reads text l.flowEntry :=
  (dropKey_reads h).bind fun _ hl => .ok (indicator_within 1 .flowEntry hl)

theorem openUnlessFlow_within (kind : TokenKind) (h : l.Within text) :
    (if l.inFlow then l else l.openHere kind).Within text := by
  split
  · exact h
  · exact openHere_within kind h

theorem blockEntry_reads (h : l.Within text) : Reads text l.blockEntry := by
  have hopen := openUnlessFlow_within .blockSequence h
  unfold blockEntry
  generalize (if l.inFlow then l else l.openHere .blockSequence) = opened at hopen ⊢
  dsimp only
  split
  · exact .malformed
  · exact (dropKey_reads hopen).bind fun _ hl => .ok (indicator_within 1 .blockEntry hl)

theorem key_reads (h : l.Within text) : Reads text l.key := by
  have hopen := openUnlessFlow_within .blockMapping h
  unfold key
  generalize (if l.inFlow then l else l.openHere .blockMapping) = opened at hopen ⊢
  dsimp only
  split
  · exact .malformed
  · exact (dropKey_reads hopen).bind fun _ hl => .ok (indicator_within 1 .key hl)

theorem insertKey_within (k : PossibleKey) (h : l.Within text) : (l.insertKey k).Within text := by
  unfold insertKey
  dsimp only
  split
  next opened hopen =>
    split at hopen
    · cases hopen
    · have hopened : opened.Within text := openBlock_within (by exact h) hopen
      exact hopened
  next => exact h

theorem value_reads (h : l.Within text) : Reads text l.value := by
  unfold value
  split
  next k _ =>
    have hdropped : Within text { l with keys := l.keys.filter (·.1 != l.flow) } := h
    exact .ok (indicator_within 1 .value (insertKey_within k hdropped))
  next =>
    have hopen := openUnlessFlow_within .blockMapping h
    generalize (if l.inFlow then l else l.openHere .blockMapping) = opened at hopen ⊢
    dsimp only
    split
    · exact .malformed
    · exact (dropKey_reads hopen).bind fun _ hl => .ok (indicator_within 1 .value hl)

theorem content_reads {read : Cursor → Except Flaw (TokenKind × Cursor)}
    (hread : ∀ {c : Cursor}, c.Within text → Cursor.Reads text (read c)) (h : l.Within text) :
    Reads text (l.content read) :=
  (saveKey_reads h).bind fun _ hl => (hread hl).bind fun _ hc => .ok hc

theorem anchorToken_reads (make : List Char → TokenKind) (h : c.Within text) :
    Cursor.Reads text (anchorToken make c) :=
  (anchorName_reads h).bind fun _ hc => .ok hc

theorem quotedToken_reads (double : Bool) (h : c.Within text) :
    Cursor.Reads text (quotedToken double c) :=
  (quotedScalar_reads double h).bind fun _ hc => .ok hc

theorem blockScalarToken_reads (folded : Bool) (h : l.Within text) :
    Reads text (l.blockScalarToken folded) := by
  have hallowed : Within text { l with keyAllowed := true } := h
  exact (dropKey_reads hallowed).bind fun _ hl =>
    (blockScalar_reads folded _ (Cursor.Within.next hl)).bind fun _ hc => .ok hc

theorem plainToken_reads (h : l.Within text) : Reads text l.plainToken :=
  (saveKey_reads h).bind fun l hl => .ok (plain_within l.inFlow (l.indent + 1) hl)

theorem token_reads (h : l.Within text) : Reads text l.token := by
  unfold token
  dsimp only
  split
  · exact streamEnd_reads h
  · refine .ite (directive_reads h) ?_
    refine .ite (documentMark_reads _ h) (.ite (documentMark_reads _ h) ?_)
    refine .ite (flowStart_reads _ h) (.ite (flowStart_reads _ h) ?_)
    refine .ite (flowEnd_reads _ h) (.ite (flowEnd_reads _ h) ?_)
    refine .ite (flowEntry_reads h) (.ite (blockEntry_reads h) ?_)
    refine .ite (key_reads h) (.ite (value_reads h) ?_)
    refine .ite (content_reads (anchorToken_reads _) h) ?_
    refine .ite (content_reads (anchorToken_reads _) h) ?_
    refine .ite (content_reads tagToken_reads h) ?_
    refine .ite (blockScalarToken_reads false h) (.ite (blockScalarToken_reads true h) ?_)
    refine .ite (content_reads (quotedToken_reads false) h) ?_
    refine .ite (content_reads (quotedToken_reads true) h) ?_
    exact .ite (plainToken_reads h) .malformed

theorem read_reads (h : l.Within text) : Reads text l.read := by
  have hblanks := skipBlanks_within (l.skipByteOrderMark.cursor.size + 1)
    (skipByteOrderMark_within h)
  exact (dropStale_reads hblanks).bind fun l hl => token_reads (unwind_within l.column hl)

theorem release_within (queue out : List Token) (h : l.Within text) :
    (release queue out l).2.Within text := by
  induction queue generalizing out l with
  | nil => exact h
  | cons t queue ih =>
    rw [release]
    split
    · exact h
    · exact ih _ h

theorem readAll_fault {fuel : Nat} {out : List Token} {f : Fault} (h : l.Within text)
    (hfault : (readAll fuel out l).2 = some (.fault f)) : Untokened text f := by
  induction fuel generalizing out l with
  | zero => cases hfault
  | succ fuel ih =>
    have hread := read_reads h
    rw [readAll] at hfault
    cases hresult : l.read with
    | error e =>
      rw [hresult] at hfault hread
      cases hfault
      exact hread.reason rfl
    | ok next =>
      rw [hresult] at hfault hread
      have hnext : next.Within text := hread.result rfl
      dsimp only at hfault
      split at hfault
      · cases hfault
      · have hstale := dropStale_reads hnext
        cases hfresh : next.dropStale with
        | error e =>
          rw [hfresh] at hfault hstale
          cases hfault
          exact hstale.reason rfl
        | ok fresh =>
          rw [hfresh] at hfault hstale
          exact ih (release_within _ _ (hstale.result rfl)) hfault

end Lexer

/-- A fault of the tokens is one of an escape or a version in the text. -/
theorem tokens_fault {f : Fault} (h : (tokens text).2 = some (.fault f)) : Untokened text f := by
  have hstart : Lexer.Within text { cursor := { rest := text } } := List.suffix_refl text
  exact Lexer.readAll_fault hstart h

end PenPlotter.Yaml
