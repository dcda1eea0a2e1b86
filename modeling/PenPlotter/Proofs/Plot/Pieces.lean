import Mathlib.Data.List.Forall2
import PenPlotter.Proofs.Plot.Decoding
import PenPlotter.Proofs.Value.LeastText
/-! # What streams are made of

Whatever values the fields of commands hold, the stream of a program is visible ASCII text without a colon.
It has one semicolon for each command, and splits at the semicolons into the texts of the commands: their
letters, with numbers behind them as the command has them.
-/
namespace PenPlotter
open Text

namespace Numeral

def Digits (s : List Char) : Prop := s ≠ [] ∧ ∀ c ∈ s, c.isDigit = true

/-- The texts of numbers: digits with a minus sign or nothing in front of them, and with digits behind a
point or nothing at the end. -/
inductive IsNumber : List Char → Prop
  | whole {sign a : List Char} (hsign : sign = [] ∨ sign = ['-']) (ha : Digits a) :
      IsNumber (sign ++ a)
  | point {sign a b : List Char} (hsign : sign = [] ∨ sign = ['-']) (ha : Digits a)
      (hb : Digits b) : IsNumber (sign ++ a ++ '.' :: b)

theorem IsWhole.is_digits {s : List Char} (h : IsWhole s) : Digits s := ⟨h.ne_nil, h.digits⟩

theorem IsFraction.is_digits {s : List Char} (h : IsFraction s) : Digits s := by
  refine ⟨?_, h.digits⟩
  rintro rfl
  obtain ⟨c, hc, -⟩ := h.trailing
  cases hc

theorem IsLeast.isNumber {s : List Char} (h : IsLeast s) : IsNumber s := by
  have hsigned {sign t : List Char} (hsign : sign = [] ∨ sign = ['-']) (ht : IsLeastUnsigned t) :
      IsNumber (sign ++ t) := by
    cases ht with
    | whole ha => exact .whole hsign ha.is_digits
    | point ha hb =>
      rw [← List.append_assoc]
      exact .point hsign ha.is_digits hb.is_digits
  cases h with
  | unsigned ht => exact hsigned (.inl rfl) ht
  | negative ht => exact hsigned (.inr rfl) ht

/-- Numbers have no character but digits, the sign and the point. -/
theorem IsNumber.plain {s : List Char} (h : IsNumber s) : Plain s := by
  have hmark {s : List Char} (hs : Digits s) : ∀ c ∈ s, isMark c = true := fun c hc => by
    simp [isMark, hs.2 c hc]
  have hsign {sign : List Char} (hs : sign = [] ∨ sign = ['-']) : ∀ c ∈ sign, isMark c = true := by
    rcases hs with rfl | rfl
    · exact List.forall_mem_nil _
    · exact List.forall_mem_singleton.mpr rfl
  cases h with
  | whole hs ha =>
    exact ⟨List.append_ne_nil_of_right_ne_nil _ ha.1, List.forall_mem_append.mpr ⟨hsign hs, hmark ha⟩⟩
  | point hs ha hb =>
    refine ⟨by simp, List.forall_mem_append.mpr ⟨?_, List.forall_mem_cons.mpr ⟨rfl, hmark hb⟩⟩⟩
    exact List.forall_mem_append.mpr ⟨hsign hs, hmark ha⟩

end Numeral

open Numeral

/-! ## The texts of commands -/

/-- The coordinates of some points: two numbers for each, with commas between all of them. -/
inductive IsCoordinates (points : ℕ) : List Char → Prop
  | intro {texts : List (List Char)} (hcount : texts.length = 2 * points)
      (h : ∀ t ∈ texts, IsNumber t) : IsCoordinates points ([','].intercalate texts)

inductive IsPiece : Item → List Char → Prop
  | defaults : IsPiece (.command .defaults) ['D', 'F']
  | initializePlotter : IsPiece (.command .initializePlotter) ['I', 'N']
  | selectPen {pen : Value} {t : List Char} (h : IsNumber t) :
      IsPiece (.command (.selectPen pen)) ('I' :: 'N' :: t)
  | velocity {v : Value} {t : List Char} (h : IsNumber t) :
      IsPiece (.command (.velocity v)) ('V' :: 'S' :: t)
  | penUp : IsPiece (.command .penUp) ['P', 'U']
  | penDown : IsPiece (.command .penDown) ['P', 'D']
  | plot {points : List Point} {s : List Char} (h : IsCoordinates points.length s) :
      IsPiece (.command (.plot points)) ('P' :: 'A' :: s)
  | loosePlot {items : List Item} {s : List Char} (h : IsCoordinates items.length s) :
      IsPiece (.loosePlot items) ('P' :: 'A' :: s)

/-- Points that have texts have numbers that have. -/
theorem exists_texts_of_points {points : List Point} {pairs : List (List Char)}
    (h : points.mapM Point.text = .ok pairs) :
    ∃ texts, (points.flatMap fun p => [p.x, p.y]).mapM Value.numberText = .ok texts := by
  refine exists_mapM_ok.mpr fun v hv => ?_
  obtain ⟨p, hp, hv⟩ := List.mem_flatMap.mp hv
  obtain ⟨s, hs⟩ := exists_mapM_ok.mp ⟨pairs, h⟩ p hp
  obtain ⟨x, hx, hs⟩ := bind_eq_ok.mp hs
  obtain ⟨y, hy, -⟩ := bind_eq_ok.mp hs
  rcases List.mem_pair.mp hv with rfl | rfl
  · exact ⟨x, hx⟩
  · exact ⟨y, hy⟩

/-- The texts of points are two numbers for each. -/
theorem isCoordinates_of_points {points : List Point} {pairs : List (List Char)}
    (h : points.mapM Point.text = .ok pairs) :
    IsCoordinates points.length ([','].intercalate pairs) := by
  obtain ⟨texts, htexts⟩ := exists_texts_of_points h
  obtain ⟨pairs', hpairs, hjoin⟩ := points_text htexts
  cases h.symm.trans hpairs
  rw [hjoin]
  refine .intro ?_ fun t ht => ?_
  · have hlength := congrArg List.length (mapM_eq_ok.mp htexts)
    simp only [List.length_map, List.length_flatMap, List.length_cons, List.length_nil,
      List.map_const', List.sum_replicate_nat] at hlength
    omega
  · obtain ⟨v, -, hv⟩ := exists_of_mapM htexts ht
    exact (Value.isLeast_numberText hv).isNumber

/-- Where points are wanted, only points have coordinates. -/
theorem Item.coordinates_eq_ok {items : List Item} {pairs : List (List Char)}
    (h : coordinates items = .ok pairs) :
    ∃ points : List Point, items = points.map .point ∧ points.mapM Point.text = .ok pairs := by
  induction items generalizing pairs with
  | nil =>
    cases h
    exact ⟨[], rfl, rfl⟩
  | cons item items ih =>
    cases item with
    | point p =>
      obtain ⟨s, hs, h⟩ := bind_eq_ok.mp h
      obtain ⟨rest, hrest, h⟩ := bind_eq_ok.mp h
      cases h
      obtain ⟨points, rfl, hpoints⟩ := ih hrest
      refine ⟨p :: points, rfl, ?_⟩
      rw [mapM_eq_ok] at hpoints ⊢
      rw [List.map_cons, List.map_cons, hs, hpoints]
    | _ => cases h

/-- The bytes of a command are those of its piece and a semicolon. -/
theorem exists_piece {item : Item} {data : Bytes} (h : item.commandFrame = .ok data) :
    ∃ s, IsPiece item s ∧ data = asciiBytes (s ++ [';']) := by
  cases item with
  | command c =>
    obtain ⟨s, hs, hdata⟩ := bind_eq_ok.mp h
    cases hdata
    refine ⟨s, ?_, rfl⟩
    cases c with
    | selectPen v =>
      obtain ⟨t, ht, hs⟩ := bind_eq_ok.mp hs
      cases hs
      exact .selectPen (Value.isLeast_numberText ht).isNumber
    | velocity v =>
      obtain ⟨t, ht, hs⟩ := bind_eq_ok.mp hs
      cases hs
      exact .velocity (Value.isLeast_numberText ht).isNumber
    | plot points =>
      obtain ⟨t, ht, hs⟩ := bind_eq_ok.mp hs
      cases hs
      obtain ⟨pairs, hpairs, ht⟩ := bind_eq_ok.mp ht
      cases ht
      exact .plot (isCoordinates_of_points hpairs)
    | defaults | initializePlotter | penUp | penDown =>
      cases hs
      constructor
  | loosePlot items =>
    obtain ⟨t, ht, hdata⟩ := bind_eq_ok.mp h
    cases hdata
    obtain ⟨pairs, hpairs, ht⟩ := bind_eq_ok.mp ht
    cases ht
    obtain ⟨points, rfl, hpoints⟩ := Item.coordinates_eq_ok hpairs
    refine ⟨_, .loosePlot ?_, rfl⟩
    rw [List.length_map]
    exact isCoordinates_of_points hpoints
  | _ =>
    obtain ⟨s, -, hdata⟩ := bind_eq_ok.mp h
    cases hdata

/-! ## The characters of commands -/

/-- Visible characters of ASCII, without those that close commands and instructions. -/
def IsInner (c : Char) : Prop := 0x20 < c.toNat ∧ c.toNat < 0x7f ∧ c ≠ ':' ∧ c ≠ ';'

instance : DecidablePred IsInner := fun _ => inferInstanceAs (Decidable (_ ∧ _))

theorem isInner_of_isMark {c : Char} (h : isMark c = true) : IsInner c := by
  have hcolon : c ≠ ':' := by
    rintro rfl
    cases h
  have hsemicolon : c ≠ ';' := by
    rintro rfl
    cases h
  simp only [isMark, Bool.or_eq_true, beq_iff_eq] at h
  rcases h with (h | rfl) | rfl
  · obtain ⟨hleast, hgreatest⟩ := Char.isDigit_iff_toNat.mp h
    exact ⟨(by decide : 0x20 < '0'.toNat).trans_le hleast,
      hgreatest.trans_lt (by decide : '9'.toNat < 0x7f), hcolon, hsemicolon⟩
  · decide
  · decide

theorem IsPiece.inner {item : Item} {s : List Char} (h : IsPiece item s) : ∀ c ∈ s, IsInner c := by
  have hnumber {t : List Char} (ht : IsNumber t) : ∀ c ∈ t, IsInner c := fun c hc =>
    isInner_of_isMark (ht.plain.2 c hc)
  have hcoordinates {n : ℕ} {t : List Char} (ht : IsCoordinates n t) : ∀ c ∈ t, IsInner c := by
    cases ht with
    | intro _ htexts =>
      intro c hc
      rcases mem_intercalate hc with rfl | ⟨t, ht, hct⟩
      · decide
      · exact hnumber (htexts t ht) c hct
  have hletters {a b : Char} {t : List Char} (ha : IsInner a) (hb : IsInner b)
      (ht : ∀ c ∈ t, IsInner c) : ∀ c ∈ a :: b :: t, IsInner c :=
    List.forall_mem_cons.mpr ⟨ha, List.forall_mem_cons.mpr ⟨hb, ht⟩⟩
  cases h with
  | selectPen h | velocity h => exact hletters (by decide) (by decide) (hnumber h)
  | plot h | loosePlot h => exact hletters (by decide) (by decide) (hcoordinates h)
  | defaults | initializePlotter | penUp | penDown =>
    exact hletters (by decide) (by decide) nofun

theorem inner_bytes {s : List Char} (hs : ∀ c ∈ s, IsInner c) {b : UInt8} (hb : b ∈ asciiBytes s) :
    0x20 < b.toNat ∧ b.toNat < 0x7f ∧ b ≠ 0x3a ∧ b ≠ 0x3b := by
  obtain ⟨c, hc, rfl⟩ := List.mem_map.mp hb
  obtain ⟨hleast, hgreatest, hcolon, hsemicolon⟩ := hs c hc
  have hlt : c.toNat < 2 ^ 8 := hgreatest.trans (by decide)
  have hbyte : (UInt8.ofNat c.toNat).toNat = c.toNat := by
    rw [UInt8.toNat_ofNat', Nat.mod_eq_of_lt hlt]
  rw [hbyte]
  refine ⟨hleast, hgreatest, fun heq => hcolon ?_, fun heq => hsemicolon ?_⟩
  · exact Char.toNat_inj.mp (hbyte.symm.trans (congrArg UInt8.toNat heq))
  · exact Char.toNat_inj.mp (hbyte.symm.trans (congrArg UInt8.toNat heq))

/-! ## Streams -/

structure Framed (items : List Item) (data : Bytes) : Prop where
  visible : ∀ b ∈ data, 0x20 < b.toNat ∧ b.toNat < 0x7f
  colon : 0x3a ∉ data
  semicolons : data.count 0x3b = items.length
  last : items ≠ [] → data.getLast? = some 0x3b
  pieces : ∃ pieces : List (List Char), data.splitOn 0x3b = pieces.map asciiBytes ++ [[]] ∧
    List.Forall₂ IsPiece items pieces

namespace Item

theorem exists_pieces {items : List Item} {frames : List Bytes}
    (h : items.mapM commandFrame = .ok frames) :
    ∃ pieces, List.Forall₂ IsPiece items pieces ∧
      frames.flatten = (pieces.map asciiBytes).flatMap (· ++ [0x3b]) := by
  rw [mapM_eq_ok] at h
  induction items generalizing frames with
  | nil =>
    obtain rfl : frames = [] := List.map_eq_nil_iff.mp h.symm
    exact ⟨[], .nil, rfl⟩
  | cons item items ih =>
    obtain ⟨frame, frames, rfl, hframe, hframes⟩ := List.map_eq_cons_iff.mp h.symm
    obtain ⟨s, hs, rfl⟩ := exists_piece hframe.symm
    obtain ⟨pieces, hpieces, hflat⟩ := ih hframes.symm
    refine ⟨s :: pieces, .cons hs hpieces, ?_⟩
    rw [List.flatten_cons, hflat, asciiBytes_append, List.map_cons, List.flatMap_cons]
    rfl

/-- Whatever values the fields of commands hold, a program that has bytes has a stream that is framed
command by command. -/
theorem encode_program_framed {items : List Item} {data : Bytes}
    (h : encode (.program items) = .ok data) : Framed items data := by
  obtain ⟨frames, hframes, hdata⟩ := bind_eq_ok.mp h
  cases hdata
  obtain ⟨pieces, hpieces, hflat⟩ := exists_pieces hframes
  have hinner : ∀ s ∈ pieces, ∀ c ∈ s, IsInner c :=
    ((List.forall₂_and_left pieces items).mp (hpieces.flip.imp fun s item h => ⟨h.inner, h⟩)).1
  -- A byte of the stream is one of a piece, or a semicolon behind one.
  have hstream {b : UInt8} (hb : b ∈ frames.flatten) :
      0x20 < b.toNat ∧ b.toNat < 0x7f ∧ b ≠ 0x3a := by
    rw [hflat] at hb
    obtain ⟨bytes, hmem, hb⟩ := List.mem_flatMap.mp hb
    obtain ⟨s, hs, rfl⟩ := List.mem_map.mp hmem
    rcases List.mem_append.mp hb with hb | hb
    · obtain ⟨hleast, hgreatest, hcolon, -⟩ := inner_bytes (hinner s hs) hb
      exact ⟨hleast, hgreatest, hcolon⟩
    · rw [List.mem_singleton.mp hb]
      decide
  have hsemicolon : ∀ bytes ∈ pieces.map asciiBytes, (0x3b : UInt8) ∉ bytes := by
    intro bytes hmem hb
    obtain ⟨s, hs, rfl⟩ := List.mem_map.mp hmem
    exact (inner_bytes (hinner s hs) hb).2.2.2 rfl
  refine {
    visible := fun b hb => ⟨(hstream hb).1, (hstream hb).2.1⟩
    colon := fun hb => (hstream hb).2.2 rfl
    semicolons := ?_
    last := fun hne => ?_
    pieces := ⟨pieces, ?_, hpieces⟩ }
  · rw [hflat, count_terminated hsemicolon, List.length_map, hpieces.length_eq]
  · have hsome : pieces.map asciiBytes ≠ [] := by
      rintro hnil
      rw [List.map_eq_nil_iff.mp hnil] at hpieces
      exact hne (List.forall₂_nil_right_iff.mp hpieces)
    rw [hflat, ← intercalate_append hsome, List.getLast?_concat]
  · rw [hflat, splitOn_terminated hsemicolon]

/-- Fields that hold text, bytes and a truth value. -/
theorem encode_program_framed_texts :
    let items : List Item := [
      .command (.selectPen (.str "1e3")), .command (.velocity (.bytes [0x32, 0x2e, 0x35])),
      .command (.plot [⟨.bool true, .str " -5e-1 "⟩]), .command .penUp]
    let data := asciiBytes "IN1000;VS2.5;PA1,-0.5;PU;".toList
    encode (.program items) = .ok data ∧ Framed items data := by
  intro items data
  have hdata : encode (.program items) = .ok data := toOption_eq_some (by decide +kernel)
  exact ⟨hdata, encode_program_framed hdata⟩

end Item

end PenPlotter
