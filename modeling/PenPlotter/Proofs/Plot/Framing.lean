import PenPlotter.Proofs.Plot.Decoding
import PenPlotter.Proofs.Plot.InstructionText
/-! # Streams determine their set-up

A frame of an instruction starts with escape and ends with its only colon, and no command starts with
escape. A stream of frames with a program behind them can be taken apart again: it tells the
instructions, one after the other, and where the program begins.
-/
namespace PenPlotter
open Text Numeral

/-! ## Parameters -/

theorem Decimal.natText_inj {m n : ℕ} (h : natText m = natText n) : m = n := by
  rw [← ofDigitChars_natText m, ← ofDigitChars_natText n, h]

theorem Decimal.intText_inj {i j : ℤ} (h : intText i = intText j) : i = j := by
  have hdenoted : (i : ℚ) = j := by rw [← denoted_intText i, ← denoted_intText j, h]
  exact_mod_cast hdenoted

theorem Value.text_integer_inj {v w : Value} (hv : v.IsInteger) (hw : w.IsInteger)
    (h : v.text = w.text) : v = w := by
  cases v with
  | int i =>
    cases w with
    | int j =>
      rw [text_int hv, text_int hw] at h
      rw [Decimal.intText_inj (Except.ok.inj h)]
    | _ => cases hw
  | _ => cases hv

theorem byteList_inj {bytes others : Bytes} (h : byteList bytes = byteList others) :
    bytes = others := by
  have hplaces (bs : Bytes) : ∀ t ∈ bs.map fun b => Decimal.natText b.toNat, t ≠ [] ∧ ';' ∉ t := by
    intro t ht
    obtain ⟨b, -, rfl⟩ := List.mem_map.mp ht
    exact ⟨Decimal.natText_ne_nil _, Decimal.not_mem_natText (by decide)⟩
  have hnumbers := intercalate_inj (hplaces bytes) (hplaces others) h
  exact (List.map_inj_right fun b c hbc => UInt8.toNat_inj.mp (Decimal.natText_inj hbc)).mp hnumbers

theorem Config.ofBits_value (c : Config) : ofBits c.value = c := by
  rcases c with ⟨a, b, d⟩
  cases a <;> cases b <;> cases d <;> rfl

theorem Config.text_inj {c d : Config} (h : c.text = d.text) : c = d := by
  have hvalue : c.value = d.value := Decimal.natText_inj h
  rw [← ofBits_value c, ← ofBits_value d, hvalue]

/-! ## Texts -/

def placeText : Option Value → Except Fault (List Char)
  | none => .ok []
  | some v => v.text

theorem placeText_integer {place : Option Value} (h : ∀ v ∈ place, v.IsInteger) :
    ∃ t, placeText place = .ok t ∧ ';' ∉ t ∧ (t = [] ↔ place = none) := by
  cases place with
  | none => exact ⟨[], rfl, List.not_mem_nil, by simp⟩
  | some v =>
    obtain ⟨t, ht, hplain⟩ := Value.text_integer (h v rfl)
    exact ⟨t, ht, hplain.not_mem (by decide), by simp [hplain.1]⟩

theorem placeText_inj {place other : Option Value} (hp : ∀ v ∈ place, v.IsInteger)
    (ho : ∀ v ∈ other, v.IsInteger) (h : placeText place = placeText other) : place = other := by
  obtain ⟨t, ht, -, hempty⟩ := placeText_integer hp
  obtain ⟨u, hu, -, hempty'⟩ := placeText_integer ho
  obtain rfl : t = u := Except.ok.inj (ht.symm.trans (h.trans hu))
  cases place with
  | none => exact (hempty'.mp (hempty.mpr rfl)).symm
  | some v =>
    cases other with
    | none => exact hempty.mp (hempty'.mpr rfl)
    | some w => rw [Value.text_integer_inj (hp v rfl) (ho w rfl) h]

/-- The two places of a handshake. The second one is what tells the two kinds apart. -/
def Handshake.places : Handshake → Value × Option Value
  | .enqAck block enq _ => (block, some enq)
  | .xonXoff threshold _ => (threshold, none)

def Handshake.bytes : Handshake → Bytes
  | .enqAck _ _ answer => answer
  | .xonXoff _ triggers => triggers

theorem Handshake.ext_places {h k : Handshake} (hplaces : h.places = k.places)
    (hbytes : h.bytes = k.bytes) : h = k := by
  cases h <;> cases k <;> cases hplaces <;> cases hbytes <;> rfl

theorem Handshake.places_integer {h : Handshake} (hw : h.Writable) :
    h.places.1.IsInteger ∧ ∀ v ∈ h.places.2, v.IsInteger := by
  cases h with
  | enqAck block enq answer =>
    refine ⟨hw.1, fun v hv => ?_⟩
    cases hv
    exact hw.2
  | xonXoff threshold triggers => exact ⟨hw, fun v hv => by cases hv⟩

theorem Handshake.text_of_places {h : Handshake} {s t : List Char} (hs : h.places.1.text = .ok s)
    (ht : placeText h.places.2 = .ok t) :
    h.text = .ok (s ++ ';' :: (t ++ ';' :: byteList h.bytes)) := by
  cases h with
  | enqAck block enq answer =>
    change block.text = _ at hs
    change enq.text = _ at ht
    rw [text, hs, ht]
    simp [bind, Except.bind, pure, Except.pure, bytes]
  | xonXoff threshold triggers =>
    cases ht
    change threshold.text = _ at hs
    rw [text, hs]
    rfl

theorem Handshake.text_inj {h k : Handshake} (hh : h.Writable) (hk : k.Writable)
    (heq : h.text = k.text) : h = k := by
  obtain ⟨hfirst, hsecond⟩ := h.places_integer hh
  obtain ⟨hfirst', hsecond'⟩ := k.places_integer hk
  obtain ⟨s, hs, hsplain⟩ := Value.text_integer hfirst
  obtain ⟨t, ht, htsemi, -⟩ := placeText_integer hsecond
  obtain ⟨s', hs', hsplain'⟩ := Value.text_integer hfirst'
  obtain ⟨t', ht', htsemi', -⟩ := placeText_integer hsecond'
  rw [text_of_places hs ht, text_of_places hs' ht'] at heq
  obtain ⟨rfl, hrest⟩ := cut_inj (hsplain.not_mem (by decide)) (hsplain'.not_mem (by decide))
    (Except.ok.inj heq)
  obtain ⟨rfl, hbytes⟩ := cut_inj htsemi htsemi' hrest
  have hplace := Value.text_integer_inj hfirst hfirst' (hs.trans hs'.symm)
  have hplace' := placeText_inj hsecond hsecond' (ht.trans ht'.symm)
  exact ext_places (Prod.ext hplace hplace') (byteList_inj hbytes)

def Extended.place (e : Extended) : Option Value :=
  match e.delay with
  | .null => none
  | v => some v

theorem Extended.text_place (e : Extended) :
    e.text = (placeText e.place).map (· ++ ';' :: byteList e.triggers) := by
  rcases e with ⟨delay, triggers⟩
  cases delay with
  | null => rfl
  | _ =>
    simp only [text, place, placeText]
    generalize Value.text _ = r
    cases r <;> rfl

theorem Extended.text_inj {e f : Extended} (he : e.Writable) (hf : f.Writable)
    (heq : e.text = f.text) : e = f := by
  have hplace {e : Extended} (he : e.Writable) : ∀ v ∈ e.place, v.IsInteger := by
    rcases e with ⟨delay, triggers⟩
    rcases he with hnull | hint
    · cases hnull
      exact fun v hv => by cases hv
    · cases delay with
      | int i =>
        intro v hv
        cases hv
        exact hint
      | _ => cases hint
  obtain ⟨s, hs, hsemi, -⟩ := placeText_integer (hplace he)
  obtain ⟨s', hs', hsemi', -⟩ := placeText_integer (hplace hf)
  rw [text_place, text_place, hs, hs'] at heq
  obtain ⟨rfl, hbytes⟩ := cut_inj hsemi hsemi' (Except.ok.inj heq)
  have hdelay := placeText_inj (hplace he) (hplace hf) (hs.trans hs'.symm)
  rcases e with ⟨delay, triggers⟩
  rcases f with ⟨delay', triggers'⟩
  obtain rfl : triggers = triggers' := byteList_inj hbytes
  cases delay <;> cases delay' <;> cases hdelay <;> rfl

theorem HandshakeMode.letter_inj {m n : HandshakeMode} (h : m.letter = n.letter) : m = n := by
  cases m <;> cases n <;> first | rfl | cases h

namespace Instruction

def letter : Instruction → Char
  | .config _ => '@'
  | .handshake mode _ => mode.letter
  | .extended _ => 'N'

def parameters : Instruction → Except Fault (List Char)
  | .config c => .ok (';' :: c.text)
  | .handshake _ h => h.text
  | .extended e => e.text

theorem text_letter (i : Instruction) : i.text = i.parameters.map (i.letter :: ·) := by
  cases i <;> rfl

theorem text_inj {i j : Instruction} (hi : i.Writable) (hj : j.Writable) (h : i.text = j.text) :
    i = j := by
  obtain ⟨letter, s, -, hs, -⟩ := text_writable hi
  have ht : j.text = .ok (letter :: s) := h.symm.trans hs
  rw [text_letter, map_eq_ok] at hs ht
  obtain ⟨x, hx, hxs⟩ := hs
  obtain ⟨y, hy, hys⟩ := ht
  obtain ⟨hletter, rfl⟩ := List.cons.inj (hxs.trans hys.symm)
  have hparameters : i.parameters = j.parameters := hx.trans hy.symm
  cases i with
  | config c =>
    cases j with
    | config d => rw [Config.text_inj (List.cons.inj (Except.ok.inj hparameters)).2]
    | handshake mode k => cases mode <;> cases hletter
    | extended f => cases hletter
  | handshake mode k =>
    cases j with
    | config d => cases mode <;> cases hletter
    | handshake mode' k' =>
      rw [HandshakeMode.letter_inj hletter, Handshake.text_inj hi hj hparameters]
    | extended f => cases mode <;> cases hletter
  | extended e =>
    cases j with
    | config d => cases hletter
    | handshake mode k => cases mode <;> cases hletter
    | extended f => rw [Extended.text_inj hi hj hparameters]

/-! ## Frames -/

/-- A frame says where it ends. -/
theorem frame_cancel {i j : Instruction} (hi : i.Writable) (hj : j.Writable) {x y r t : Bytes}
    (hx : i.frame = .ok x) (hy : j.frame = .ok y) (h : x ++ r = y ++ t) : i = j ∧ r = t := by
  have hbody {s : List Char} (hs : ∀ c ∈ s, c.toNat < 128 ∧ c ≠ ':') :
      (0x3a : UInt8) ∉ 0x1b :: 0x2e :: asciiBytes s := by
    intro hmem
    rcases List.mem_cons.mp hmem with hmem | hmem
    · cases hmem
    rcases List.mem_cons.mp hmem with hmem | hmem
    · cases hmem
    · have hcolon : ':' ∈ s := mem_asciiBytes (fun c hc => (hs c hc).1) (by decide) hmem
      exact (hs ':' hcolon).2 rfl
  obtain ⟨s, hs, hframe⟩ := frame_writable hi
  obtain ⟨u, hu, hframe'⟩ := frame_writable hj
  have hschars := text_chars hi hs
  have huchars := text_chars hj hu
  rw [← Except.ok.inj (hframe.symm.trans hx), ← Except.ok.inj (hframe'.symm.trans hy),
    List.append_assoc, List.append_assoc] at h
  obtain ⟨hbodies, hrest⟩ := cut_inj (hbody hschars) (hbody huchars) h
  have htexts : s = u := asciiBytes_inj (fun c hc => (hschars c hc).1) (fun c hc => (huchars c hc).1)
    (List.cons.inj (List.cons.inj hbodies).2).2
  exact ⟨text_inj hi hj (by rw [hs, hu, htexts]), hrest⟩

theorem frame_head {i : Instruction} {x : Bytes} (h : i.frame = .ok x) : ∃ r, x = 0x1b :: r := by
  obtain ⟨s, -, hwrap⟩ := bind_eq_ok.mp h
  obtain ⟨t, -, hx⟩ := bind_eq_ok.mp hwrap
  cases hx
  exact ⟨_, rfl⟩

theorem frame_ne_nil {i : Instruction} {data : Bytes} (h : i.frame = .ok data) : data ≠ [] := by
  obtain ⟨rest, rfl⟩ := frame_head h
  exact List.cons_ne_nil _ rest

/-- Frames with a rest behind them that starts no frame are told by their bytes. -/
theorem frames_inj {is js : List Instruction} (his : ∀ i ∈ is, i.Writable)
    (hjs : ∀ j ∈ js, j.Writable) {xs ys : List Bytes} {a b : Bytes}
    (hxs : xs.map .ok = is.map frame) (hys : ys.map .ok = js.map frame)
    (ha : ∀ r, a ≠ 0x1b :: r) (hb : ∀ r, b ≠ 0x1b :: r)
    (h : xs.flatten ++ a = ys.flatten ++ b) : is = js ∧ a = b := by
  have hstarts {i : Instruction} {x r t : Bytes} (hr : ∀ s, r ≠ 0x1b :: s) (hx : i.frame = .ok x) :
      r ≠ x ++ t := by
    obtain ⟨s, rfl⟩ := frame_head hx
    exact hr (s ++ t)
  induction is generalizing js xs ys with
  | nil =>
    obtain rfl : xs = [] := List.map_eq_nil_iff.mp hxs
    cases js with
    | nil =>
      obtain rfl : ys = [] := List.map_eq_nil_iff.mp hys
      exact ⟨rfl, h⟩
    | cons j js =>
      obtain ⟨y, ys, rfl, hy, -⟩ := List.map_eq_cons_iff.mp hys
      rw [List.flatten_cons, List.append_assoc] at h
      exact absurd h (hstarts ha hy.symm)
  | cons i is ih =>
    obtain ⟨hi, his⟩ := List.forall_mem_cons.mp his
    obtain ⟨x, xs, rfl, hx, hxs⟩ := List.map_eq_cons_iff.mp hxs
    rw [List.flatten_cons, List.append_assoc] at h
    cases js with
    | nil =>
      obtain rfl : ys = [] := List.map_eq_nil_iff.mp hys
      exact absurd h.symm (hstarts hb hx.symm)
    | cons j js =>
      obtain ⟨hj, hjs'⟩ := List.forall_mem_cons.mp hjs
      obtain ⟨y, ys, rfl, hy, hys'⟩ := List.map_eq_cons_iff.mp hys
      rw [List.flatten_cons, List.append_assoc] at h
      obtain ⟨rfl, hrest⟩ := frame_cancel hi hj hx.symm hy.symm h
      obtain ⟨rfl, hprogram⟩ := ih his hjs' hxs hys' hrest
      exact ⟨rfl, hprogram⟩

theorem exists_frames {is : List Instruction} (h : ∀ i ∈ is, i.Writable) :
    ∃ xs, is.mapM frame = .ok xs := by
  refine exists_mapM_ok.mpr fun i hi => ?_
  obtain ⟨s, -, hframe⟩ := frame_writable (h i hi)
  exact ⟨_, hframe⟩

end Instruction

/-! ## Programs behind frames -/

theorem Command.text_head {c : Command} {s : List Char} (h : c.text = .ok s) :
    ∃ letter t, s = letter :: t ∧ letter ∈ ['D', 'I', 'V', 'P'] := by
  cases c with
  | selectPen v | velocity v | plot points =>
    obtain ⟨t, -, hs⟩ := bind_eq_ok.mp h
    cases hs
    exact ⟨_, _, rfl, by decide⟩
  | _ =>
    cases h
    exact ⟨_, _, rfl, by decide⟩

namespace Item

theorem commandFrame_head {item : Item} {data : Bytes} (h : item.commandFrame = .ok data) :
    ∃ first rest, data = first :: rest ∧ first ≠ 0x1b := by
  cases item with
  | command c =>
    obtain ⟨s, hs, hdata⟩ := bind_eq_ok.mp h
    obtain ⟨letter, t, rfl, hletter⟩ := Command.text_head hs
    cases hdata
    refine ⟨_, _, rfl, ?_⟩
    simp only [List.mem_cons, List.not_mem_nil, or_false] at hletter
    rcases hletter with rfl | rfl | rfl | rfl <;> decide
  | loosePlot items =>
    obtain ⟨s, -, hdata⟩ := bind_eq_ok.mp h
    cases hdata
    exact ⟨_, _, rfl, by decide⟩
  | _ =>
    obtain ⟨s, -, hdata⟩ := bind_eq_ok.mp h
    cases hdata

theorem commandFrame_ne_nil {item : Item} {data : Bytes} (h : item.commandFrame = .ok data) :
    data ≠ [] := by
  obtain ⟨first, rest, rfl, -⟩ := commandFrame_head h
  exact List.cons_ne_nil first rest

/-- Only instructions have frames where instructions are wanted. -/
theorem instructionFrame_ne_nil {item : Item} {data : Bytes} (h : item.instructionFrame = .ok data) :
    data ≠ [] := by
  cases item with
  | instruction i => exact Instruction.frame_ne_nil h
  | _ =>
    obtain ⟨s, -, hdata⟩ := bind_eq_ok.mp h
    cases hdata

theorem mem_framesOf {frame : Item → Except Fault Bytes} {item : Item} {data : Bytes}
    (h : .ok data ∈ framesOf frame item) : ∃ x, frame x = .ok data := by
  unfold framesOf at h
  split at h
  · obtain ⟨x, -, hx⟩ := List.mem_map.mp h
    exact ⟨x, hx⟩
  · cases List.mem_singleton.mp h

theorem encode_program_head {items : List Item} {data : Bytes}
    (h : encode (.program items) = .ok data) (r : Bytes) : data ≠ 0x1b :: r := by
  obtain ⟨frames, hframes, hdata⟩ := bind_eq_ok.mp h
  cases hdata
  rw [mapM_eq_ok] at hframes
  cases items with
  | nil =>
    obtain rfl : frames = [] := List.map_eq_nil_iff.mp hframes.symm
    exact (List.cons_ne_nil _ _).symm
  | cons item items =>
    obtain ⟨x, xs, rfl, hx, -⟩ := List.map_eq_cons_iff.mp hframes.symm
    obtain ⟨first, rest, rfl, hfirst⟩ := commandFrame_head hx.symm
    exact fun heq => hfirst (List.cons.inj heq).1

end Item

namespace Instruction

/-- Streams of set-up and program are the same just where the instructions are and the programs have one
rendering. -/
theorem setup_program_inj (is js : List Instruction) (ps qs : List Item) (a b : Bytes)
    (his : ∀ i ∈ is, i.Writable) (hjs : ∀ j ∈ js, j.Writable)
    (ha : Item.encode (.program ps) = .ok a) (hb : Item.encode (.program qs) = .ok b) :
    ∃ xs ys, is.mapM frame = .ok xs ∧ js.mapM frame = .ok ys ∧
      (xs.flatten ++ a = ys.flatten ++ b ↔ is = js ∧ a = b) := by
  obtain ⟨xs, hxs⟩ := exists_frames his
  obtain ⟨ys, hys⟩ := exists_frames hjs
  refine ⟨xs, ys, hxs, hys, fun h => ?_, ?_⟩
  · exact frames_inj his hjs (mapM_eq_ok.mp hxs).symm (mapM_eq_ok.mp hys).symm
      (Item.encode_program_head ha) (Item.encode_program_head hb) h
  · rintro ⟨rfl, rfl⟩
    rw [Except.ok.inj (hxs.symm.trans hys)]

/-- Two set-ups that differ in the kind of handshake only, with the pen lifted behind both. -/
theorem setup_program_inj_kinds :
    let asking : List Instruction := [.handshake .two (.enqAck (.int 40) (.int 5) [6]), .extended {}]
    let waiting : List Instruction := [.handshake .two (.xonXoff (.int 40) [6]), .extended {}]
    let lifted : Bytes := [0x50, 0x55, 0x3b]
    ∃ xs ys, asking.mapM frame = .ok xs ∧ waiting.mapM frame = .ok ys ∧
      (xs.flatten ++ lifted = ys.flatten ++ lifted ↔ asking = waiting ∧ lifted = lifted) := by
  intro asking waiting lifted
  have hforty : (Value.int 40).IsInteger := Decimal.writable_of_lt (k := 2) (by decide) (by decide)
  have hfive : (Value.int 5).IsInteger := Decimal.writable_of_lt (k := 1) (by decide) (by decide)
  have hnone : ∀ i ∈ [Instruction.extended {}], i.Writable :=
    List.forall_mem_singleton.mpr (.inl rfl)
  exact setup_program_inj asking waiting [.command .penUp] [.command .penUp] lifted lifted
    (List.forall_mem_cons.mpr ⟨⟨hforty, hfive⟩, hnone⟩)
    (List.forall_mem_cons.mpr ⟨hforty, hnone⟩) rfl rfl

end Instruction

end PenPlotter
