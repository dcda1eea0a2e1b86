import PenPlotter.Proofs.Plot.CommandText
/-! # Streams determine programs

The stream of a program is a concatenation of frames, each closed by the only semicolon in it. It can
be taken apart again, so programs of numbers have one stream just where they are equal, numbers being
compared by value.
-/
namespace PenPlotter
open Text

/-- The characters of an ASCII text are told by its bytes. -/
theorem asciiBytes_inj {s t : List Char} (hs : ∀ c ∈ s, c.toNat < 128)
    (ht : ∀ c ∈ t, c.toNat < 128) (h : asciiBytes s = asciiBytes t) : s = t := by
  have hback {u : List Char} (hu : ∀ c ∈ u, c.toNat < 128) :
      (asciiBytes u).map (fun b => Char.ofNat b.toNat) = u := by
    rw [asciiBytes, List.map_map]
    conv_rhs => rw [← List.map_id u]
    refine List.map_congr_left fun c hc => ?_
    have hlt : c.toNat < 2 ^ 8 := (hu c hc).trans (by decide)
    rw [Function.comp_apply, UInt8.toNat_ofNat', Nat.mod_eq_of_lt hlt, Char.ofNat_toNat, id]
  rw [← hback hs, ← hback ht, h]

theorem mem_asciiBytes {s : List Char} (hs : ∀ c ∈ s, c.toNat < 128) {c : Char} (hc : c.toNat < 128)
    (h : UInt8.ofNat c.toNat ∈ asciiBytes s) : c ∈ s := by
  obtain ⟨d, hd, heq⟩ := List.mem_map.mp h
  have hbytes : asciiBytes [d] = asciiBytes [c] := congrArg (fun b => [b]) heq
  have hsame : [d] = [c] := asciiBytes_inj (by simpa using hs d hd) (by simpa using hc) hbytes
  rwa [← List.head_eq_of_cons_eq hsame]

theorem asciiBytes_append (s t : List Char) : asciiBytes (s ++ t) = asciiBytes s ++ asciiBytes t :=
  List.map_append

namespace Item

theorem sameList_cons {α : Type} (eq : α → α → Bool) (x y : α) (xs ys : List α) :
    sameList eq (x :: xs) (y :: ys) = (eq x y && sameList eq xs ys) := by
  simp only [sameList, List.length_cons, List.zip_cons_cons, List.all_cons]
  cases eq x y <;> simp

theorem sameList_points {ps qs : List Point}
    (hp : ∀ v ∈ ps.flatMap fun p => [p.x, p.y], v.Numeric)
    (hq : ∀ v ∈ qs.flatMap fun q => [q.x, q.y], v.Numeric) :
    sameList samePoint ps qs = true ↔
      (ps.flatMap fun p => [p.x, p.y]).map Value.written =
        (qs.flatMap fun q => [q.x, q.y]).map Value.written := by
  induction ps generalizing qs with
  | nil => cases qs <;> simp [sameList]
  | cons p ps ih =>
    cases qs with
    | nil => simp [sameList]
    | cons q qs =>
      simp only [List.flatMap_cons, List.cons_append, List.nil_append, List.forall_mem_cons] at hp hq
      obtain ⟨hpx, hpy, hps⟩ := hp
      obtain ⟨hqx, hqy, hqs⟩ := hq
      rw [sameList_cons, Bool.and_eq_true, ih hps hqs, samePoint, Bool.and_eq_true,
        Value.same_iff_written hpx hqx, Value.same_iff_written hpy hqy]
      simp [and_assoc]

/-- Commands of numbers are equal where their letters and numbers agree. -/
theorem sameCommand_iff {c d : Command} (hc : c.Numeric) (hd : d.Numeric) :
    sameCommand c d = true ↔
      c.letters = d.letters ∧ c.numbers.map Value.written = d.numbers.map Value.written := by
  cases c with
  | selectPen v | velocity v =>
    cases d with
    | selectPen w | velocity w =>
      have hv : v.Numeric := hc v (List.mem_singleton.mpr rfl)
      have hw : w.Numeric := hd w (List.mem_singleton.mpr rfl)
      simp [sameCommand, Command.letters, Command.numbers, Value.same_iff_written hv hw]
    | _ => simp [sameCommand, Command.letters, Command.numbers]
  | plot ps =>
    cases d with
    | plot qs =>
      rw [sameCommand, sameList_points hc hd]
      exact (and_iff_right rfl).symm
    | _ => simp [sameCommand, Command.letters]
  | _ => cases d <;> simp [sameCommand, Command.letters, Command.numbers]

/-- A command of numbers has a frame: its text, which is ASCII without a semicolon, and a semicolon. -/
theorem commandFrame_numeric {c : Command} (hc : c.Numeric) :
    ∃ t, c.text = .ok t ∧ commandFrame (.command c) = .ok (asciiBytes (t ++ [';'])) ∧
      ';' ∉ t ∧ ∀ x ∈ t, x.toNat < 128 := by
  obtain ⟨texts, htexts, hplain, -⟩ := Value.exists_texts hc
  have htext := Command.text_of_numbers htexts
  have hletters : ∀ x ∈ c.letters, x ≠ ';' ∧ x.toNat < 128 := by
    cases c <;> simp [Command.letters]
  refine ⟨_, htext, ?_, fun hmem => ?_, fun x hmem => ?_⟩
  · rw [commandFrame, Command.frame, htext]
    rfl
  · rcases Command.mem_text hplain hmem with h | h | h
    · exact (hletters _ h).1 rfl
    · cases h
    · cases h
  · rcases Command.mem_text hplain hmem with h | rfl | h
    · exact (hletters x h).2
    · decide
    · exact Numeral.isMark_ascii h

/-- The stream of commands of numbers: their texts, which are ASCII without a semicolon, each with a
semicolon behind it. -/
theorem encodeAll_numeric {cs : List Command} (h : ∀ c ∈ cs, c.Numeric) :
    ∃ texts : List (List Char), cs.map Command.text = texts.map .ok ∧
      encodeAll (cs.map .command) = .ok (asciiBytes (texts.flatMap (· ++ [';']))) ∧
      (∀ t ∈ texts, ';' ∉ t) ∧ ∀ x ∈ texts.flatMap (· ++ [';']), x.toNat < 128 := by
  induction cs with
  | nil => exact ⟨[], rfl, rfl, by simp, by simp⟩
  | cons c cs ih =>
    obtain ⟨hc, hcs⟩ := List.forall_mem_cons.mp h
    obtain ⟨t, htext, hframe, hsemi, hascii⟩ := commandFrame_numeric hc
    obtain ⟨texts, htexts, hstream, hsemis, hasciis⟩ := ih hcs
    refine ⟨t :: texts, ?_, ?_, List.forall_mem_cons.mpr ⟨hsemi, hsemis⟩, ?_⟩
    · rw [List.map_cons, List.map_cons, htext, htexts]
    · obtain ⟨frames, hframes, hflat⟩ := bind_eq_ok.mp hstream
      rw [mapM_eq_ok] at hframes
      refine bind_eq_ok.mpr ⟨asciiBytes (t ++ [';']) :: frames, ?_, ?_⟩
      · rw [mapM_eq_ok, List.map_cons, List.map_cons, List.map_cons, hframe, hframes]
      · rw [List.flatten_cons, Except.ok.inj hflat, ← asciiBytes_append, List.flatMap_cons]
        rfl
    · intro x hx
      rw [List.flatMap_cons, List.mem_append, List.mem_append] at hx
      rcases hx with (hx | hx) | hx
      · exact hascii x hx
      · rw [List.mem_singleton.mp hx]
        decide
      · exact hasciis x hx

theorem sameAll_iff {cs ds : List Command} (hc : ∀ c ∈ cs, c.Numeric) (hd : ∀ d ∈ ds, d.Numeric) :
    sameAll (cs.map .command) (ds.map .command) = true ↔
      cs.map Command.text = ds.map Command.text := by
  induction cs generalizing ds with
  | nil => cases ds <;> simp [sameAll]
  | cons c cs ih =>
    cases ds with
    | nil => simp [sameAll]
    | cons d ds =>
      obtain ⟨hc, hcs⟩ := List.forall_mem_cons.mp hc
      obtain ⟨hd, hds⟩ := List.forall_mem_cons.mp hd
      simp only [List.map_cons, sameAll, Bool.and_eq_true, ih hcs hds, same, List.cons.injEq,
        sameCommand_iff hc hd, Command.text_inj hc hd]

/-- Programs of numbers have streams, and these are the same just where the programs are equal. -/
theorem encode_program_inj (cs ds : List Command) (hc : ∀ c ∈ cs, c.Numeric)
    (hd : ∀ d ∈ ds, d.Numeric) :
    ∃ a b, encode (.program (cs.map .command)) = .ok a ∧
      encode (.program (ds.map .command)) = .ok b ∧
      (a = b ↔ same (.program (cs.map .command)) (.program (ds.map .command)) = true) := by
  obtain ⟨ts, hts, hstream, hsemi, hascii⟩ := encodeAll_numeric hc
  obtain ⟨us, hus, hstream', hsemi', hascii'⟩ := encodeAll_numeric hd
  refine ⟨_, _, by rw [encode, hstream], by rw [encode, hstream'], ?_⟩
  rw [same, sameAll_iff hc hd, hts, hus]
  constructor
  · intro h
    rw [terminated_inj hsemi hsemi' (asciiBytes_inj hascii hascii' h)]
  · intro h
    rw [map_ok_injective h]

/-- Two programs that select pen one and plot half a unit, the pen once an integer and once a double. -/
theorem encode_program_inj_mixed :
    let half : Value := .double (.finite false (2 ^ 52) (-53) (by decide))
    let one : Value := .double (.finite false (2 ^ 52) (-52) (by decide))
    let plot : Command := .plot [⟨half, .int 0⟩]
    ∃ a b, encode (.program ([.selectPen (.int 1), plot].map .command)) = .ok a ∧
      encode (.program ([.selectPen one, plot].map .command)) = .ok b ∧
      (a = b ↔ same (.program ([.selectPen (.int 1), plot].map .command))
        (.program ([.selectPen one, plot].map .command)) = true) := by
  intro half one plot
  have hplot : plot.Numeric := by
    intro v hv
    rcases List.mem_pair.mp hv with rfl | rfl
    · rfl
    · exact Decimal.writable_of_lt (k := 1) (by decide) (by decide)
  have hpen (v : Value) (hv : v.Numeric) : (Command.selectPen v).Numeric := by
    intro w hw
    rwa [List.mem_singleton.mp hw]
  have hone : (Value.int 1).Numeric := Decimal.writable_of_lt (k := 1) (by decide) (by decide)
  exact encode_program_inj _ _
    (List.forall_mem_cons.mpr ⟨hpen _ hone, by simpa using hplot⟩)
    (List.forall_mem_cons.mpr ⟨hpen _ rfl, by simpa using hplot⟩)

end Item

end PenPlotter
