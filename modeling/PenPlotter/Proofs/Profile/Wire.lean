import PenPlotter.Proofs.Profile.Options
import PenPlotter.Proofs.Profile.Settings
import PenPlotter.Proofs.Schema.Unique
import PenPlotter.Proofs.Value.Natural
/-! # The set-up on the wire

What the set-up of a built profile sends is told by its document: the weights of the options, the numbers of
the handshake and those of the extended handshake, all in decimal. The schema bounds each number, so all of
them can be written, and the line supports the settings.
-/
namespace PenPlotter

namespace Profile
open Schema Text

/-! ## What a document says -/

def digits (n : ℕ) : List Char := Nat.toDigits 10 n

def joined (ns : List ℕ) : List Char := [';'].intercalate (ns.map digits)

def enclosed (s : List Char) : Bytes := 0x1b :: 0x2e :: asciiBytes s ++ [0x3a]

inductive ConfigNumber : Option Value → ℕ → Prop
  | absent : ConfigNumber none 0
  | named {xs : List Value} {n : ℕ} (h : Config.Weighs (Value.items xs) n) :
      ConfigNumber (some (.list xs)) n

/-- The numbers of a byte list; one that is left out has none. -/
inductive ByteNumbers : Option Value → List ℕ → Prop
  | absent : ByteNumbers none []
  | listed {xs : List Value} {ns : List ℕ} (h : Value.items xs = ns.map fun n => .int n)
      (hns : ∀ n ∈ ns, n ≤ 255) : ByteNumbers (some (.list xs)) ns

inductive NumberAt (v : Value) (name : String) (bound n : ℕ) : Prop
  | intro {x : Value} (hx : part? v [name] = some x) (hn : x.IsNatural n) (hbound : n ≤ bound)

inductive ModeLetter (v : Value) : Char → Prop
  | one {x : Value} (hx : part? v ["mode"] = some x) (h : x.IsNatural 1) : ModeLetter v 'H'
  | two {x : Value} (hx : part? v ["mode"] = some x) (h : x.IsNatural 2) : ModeLetter v 'I'

inductive HandshakeText (v : Value) : List Char → Prop
  | enqAck {letter : Char} {block enq : ℕ} {answer : List ℕ} (hmode : ModeLetter v letter)
      (htype : part? v ["type"] = some (.str "enq_ack"))
      (hblock : NumberAt v "block_size" 255 block) (henq : NumberAt v "enq_char" 255 enq)
      (hanswer : ByteNumbers (part? v ["ack_string"]) answer) :
      HandshakeText v
        (letter :: (digits block ++ ';' :: digits enq ++ ';' :: joined answer))
  | xonXoff {letter : Char} {threshold : ℕ} {triggers : List ℕ} (hmode : ModeLetter v letter)
      (htype : part? v ["type"] = some (.str "xon_xoff"))
      (hthreshold : NumberAt v "xoff_threshold" 255 threshold)
      (htriggers : ByteNumbers (part? v ["xon_trigger_chars"]) triggers) :
      HandshakeText v (letter :: (digits threshold ++ ';' :: ';' :: joined triggers))

inductive DelayText : Option Value → List Char → Prop
  | absent : DelayText none []
  | null : DelayText (some .null) []
  | given {v : Value} {n : ℕ} (hn : v.IsNatural n) (hbound : n ≤ 65535) :
      DelayText (some v) (digits n)

inductive ExtendedText (v : Value) : List Char → Prop
  | intro {delay : List Char} {triggers : List ℕ}
      (hdelay : DelayText (part? v ["interchar_delay"]) delay)
      (htriggers : ByteNumbers (part? v ["xoff_trigger_chars"]) triggers) :
      ExtendedText v ('N' :: (delay ++ ';' :: joined triggers))

inductive PartFrame (text : Value → List Char → Prop) : Option Value → Bytes → Prop
  | absent : PartFrame text none []
  | present {v : Value} {s : List Char} (h : text v s) : PartFrame text (some v) (enclosed s)

/-- The bytes that set up the plotter as a document asks for. -/
inductive SetupBytes (doc : Value) : Bytes → Prop
  | intro {n : ℕ} {handshake extended : Bytes}
      (hconfig : ConfigNumber (part? doc ["setup", "plotter_config"]) n)
      (hhandshake : PartFrame HandshakeText (part? doc ["setup", "handshake"]) handshake)
      (hextended : PartFrame ExtendedText (part? doc ["setup", "ext_handshake"]) extended) :
      SetupBytes doc (enclosed ('@' :: ';' :: digits n) ++ handshake ++ extended)

/-! ## What a built profile sends -/

variable {s : Schema} {es : List (Value × Value)} {v : Value}

theorem number_text (h : accepts s (.map es) = true) {name : String}
    (hs : (name, byteSchema) ∈ s.fields) (hv : number (Value.entries es) name = .ok v) :
    ∃ n, NumberAt (.map es) name 255 n ∧ v.text = .ok (digits n) := by
  obtain ⟨i, hi, hiv⟩ := bind_eq_ok.mp hv
  cases hiv
  rw [field_entries] at hi
  cases hx : Value.field? name es with
  | none =>
    rw [hx] at hi
    cases hi
  | some x =>
    rw [hx, Option.getD_some] at hi
    rcases Value.natural_of_accepts (by simp) (accepts_field h hs hx) with rfl | ⟨n, hn, hnat, hle⟩
    · cases hi
    · rw [hi, Except.ok.injEq] at hn
      subst hn
      exact ⟨n, .intro ((part?_singleton es name).trans hx) hnat hle,
        Value.text_natural (hle.trans (by decide))⟩

theorem byteString_numbers (h : accepts s (.map es) = true) {name : String} {bytes : Bytes}
    (hs : (name, byteStringSchema) ∈ s.fields)
    (hb : byteString (Value.entries es) name = .ok bytes) :
    ByteNumbers (part? (.map es) [name]) (bytes.map UInt8.toNat) := by
  rw [byteString, field_entries] at hb
  rw [part?_singleton]
  cases hx : Value.field? name es with
  | none =>
    rw [hx] at hb
    cases hb
    exact .absent
  | some x =>
    rw [hx, Option.getD_some] at hb
    have haccepts := accepts_field h hs hx
    obtain ⟨xs, rfl⟩ := array_of_accepts haccepts
    refine .listed ?_ fun n hn => ?_
    · rw [Value.items_of_toBytes haccepts hb, List.map_map]
      rfl
    · obtain ⟨b, -, rfl⟩ := List.mem_map.mp hn
      exact Nat.le_of_lt_succ b.toNat_lt

theorem byteList_eq (bytes : Bytes) : byteList bytes = joined (bytes.map UInt8.toNat) := by
  rw [byteList, joined, List.map_map]
  rfl

theorem mode_letter (h : accepts s (.map es) = true) (hneeded : "mode" ∈ s.needed)
    (hs : ("mode", modeSchema) ∈ s.fields) :
    ModeLetter (.map es) (buildMode (field (Value.entries es) "mode" .null)).letter := by
  obtain ⟨x, hx⟩ := accepts_needed h hneeded
  have hpart := (part?_singleton es "mode").trans hx
  obtain ⟨c, hc, hequal⟩ := Rule.kept_enum.mp (accepts_cons.mp (accepts_field h hs hx)).1
  rw [field_entries, hx, Option.getD_some, buildMode]
  simp only [List.mem_cons, List.not_mem_nil, or_false] at hc
  rcases hc with rfl | rfl
  · rw [if_pos (Value.hashable_of_equal_int hequal).2]
    exact .one hpart (Value.isNatural_of_equal hequal)
  · have htwo : x.IsNatural 2 := Value.isNatural_of_equal hequal
    have hnot : ¬ x.same (.int 1) = true := by
      intro hsame
      have hone : x.equal (.int 1) = true := by
        cases x with
        | bool b => cases htwo
        | _ => exact hsame
      exact absurd ((Value.isNatural_of_equal (n := 1) hone).unique htwo) (by decide)
    rw [if_neg hnot]
    exact .two hpart htwo

/-- The type that names a handshake is the one that its schema asks for. -/
theorem type_part (h : accepts s (.map es) = true) (hneeded : "type" ∈ s.needed) {t : String}
    (hs : ("type", [.const (.str t)]) ∈ s.fields) : part? (.map es) ["type"] = some (.str t) := by
  obtain ⟨x, hx⟩ := accepts_needed h hneeded
  have hconst := accepts_field h hs hx
  rw [accepts_cons, Rule.kept_const] at hconst
  rw [part?_singleton, hx, Value.eq_str_of_equal hconst.1]

theorem handshake_text {built : HandshakeMode × Handshake}
    (h : accepts [.anyOf [xonXoffSchema, enqAckSchema]] v = true)
    (hb : buildHandshake (entriesOf v) = .ok built) :
    ∃ t, built.2.text = .ok t ∧ HandshakeText v (built.1.letter :: t) := by
  obtain ⟨branch, hmem, hbranch⟩ := Rule.kept_anyOf (accepts_cons.mp h).1
  simp only [List.mem_cons, List.not_mem_nil, or_false] at hmem
  rcases hmem with rfl | rfl
  · obtain ⟨es, rfl⟩ := object_of_accepts hbranch
    have hneeded : "type" ∈ needed xonXoffSchema := by simp [needed, xonXoffSchema]
    have hfield : ("type", [.const (.str "xon_xoff")]) ∈ fields xonXoffSchema := by
      simp [fields, xonXoffSchema]
    have htype := type_of_accepts hbranch hneeded hfield
    simp only [entriesOf, buildHandshake, htype, if_neg (show ¬ "xon_xoff" = "enq_ack" by decide),
      bind_eq_ok] at hb
    obtain ⟨threshold, hthreshold, triggers, htriggers, hbuilt⟩ := hb
    cases hbuilt
    obtain ⟨n, hn, htext⟩ := number_text hbranch (by simp [fields, xonXoffSchema]) hthreshold
    refine ⟨digits n ++ ';' :: ';' :: byteList triggers, ?_, ?_⟩
    · rw [Handshake.text, htext]
      rfl
    · rw [byteList_eq]
      exact .xonXoff
        (mode_letter hbranch (by simp [needed, xonXoffSchema]) (by simp [fields, xonXoffSchema]))
        (type_part hbranch hneeded hfield) hn
        (byteString_numbers hbranch (by simp [fields, xonXoffSchema]) htriggers)
  · obtain ⟨es, rfl⟩ := object_of_accepts hbranch
    have hneeded : "type" ∈ needed enqAckSchema := by simp [needed, enqAckSchema]
    have hfield : ("type", [.const (.str "enq_ack")]) ∈ fields enqAckSchema := by
      simp [fields, enqAckSchema]
    have htype := type_of_accepts hbranch hneeded hfield
    simp only [entriesOf, buildHandshake, htype, ↓reduceIte, bind_eq_ok] at hb
    obtain ⟨block, hblock, enq, henq, answer, hanswer, hbuilt⟩ := hb
    cases hbuilt
    obtain ⟨n, hn, hntext⟩ := number_text hbranch (by simp [fields, enqAckSchema]) hblock
    obtain ⟨m, hm, hmtext⟩ := number_text hbranch (by simp [fields, enqAckSchema]) henq
    refine ⟨digits n ++ ';' :: digits m ++ ';' :: byteList answer, ?_, ?_⟩
    · rw [Handshake.text, hntext, hmtext]
      rfl
    · rw [byteList_eq]
      exact .enqAck
        (mode_letter hbranch (by simp [needed, enqAckSchema]) (by simp [fields, enqAckSchema]))
        (type_part hbranch hneeded hfield) hn hm
        (byteString_numbers hbranch (by simp [fields, enqAckSchema]) hanswer)

theorem buildExtended_cases {ps : Entries} {e : Extended} (hb : buildExtended ps = .ok e) :
    byteString ps "xoff_trigger_chars" = .ok e.triggers ∧
      (field ps "interchar_delay" .null = .null ∧ e.delay = .null ∨
        ∃ i, (field ps "interchar_delay" .null).toInt = .ok i ∧ e.delay = .int i) := by
  simp only [buildExtended] at hb
  split at hb
  next hnull =>
    simp only [bind_eq_ok] at hb
    obtain ⟨delay, hdelay, triggers, htriggers, he⟩ := hb
    cases hdelay
    cases he
    exact ⟨htriggers, .inl ⟨hnull, rfl⟩⟩
  next =>
    simp only [bind_eq_ok] at hb
    obtain ⟨i, hi, delay, hdelay, triggers, htriggers, he⟩ := hb
    cases hdelay
    cases he
    exact ⟨htriggers, .inr ⟨i, hi, rfl⟩⟩

/-- The delay is null, or the number in the document. -/
theorem delay_text {delay : Value} (h : accepts extendedSchema (.map es) = true)
    (hdelay : field (Value.entries es) "interchar_delay" .null = .null ∧ delay = .null ∨
      ∃ i, (field (Value.entries es) "interchar_delay" .null).toInt = .ok i ∧ delay = .int i) :
    delay = .null ∧ DelayText (part? (.map es) ["interchar_delay"]) [] ∨
      ∃ n : ℕ, delay = .int n ∧ DelayText (part? (.map es) ["interchar_delay"]) (digits n) ∧
        delay.text = .ok (digits n) := by
  rw [field_entries] at hdelay
  rw [part?_singleton]
  cases hx : Value.field? "interchar_delay" es with
  | none =>
    rw [hx] at hdelay
    rcases hdelay with ⟨-, hnull⟩ | ⟨i, hi, -⟩
    · exact .inl ⟨hnull, .absent⟩
    · cases hi
  | some x =>
    have hacc : accepts [.kinds [.integer, .null], .minimum 0, .maximum (65535 : ℕ)] x = true :=
      accepts_field h (by simp [fields, extendedSchema]) hx
    rw [hx, Option.getD_some] at hdelay
    rcases hdelay with ⟨rfl, hnull⟩ | ⟨i, hi, rfl⟩
    · exact .inl ⟨hnull, .null⟩
    · rcases Value.natural_of_accepts (by simp) hacc with rfl | ⟨n, hn, hnat, hle⟩
      · cases hi
      · rw [hi, Except.ok.injEq] at hn
        subst hn
        exact .inr ⟨n, rfl, .given hnat hle, Value.text_natural hle⟩

theorem extended_text {e : Extended} (h : accepts extendedSchema v = true)
    (hb : buildExtended (entriesOf v) = .ok e) :
    ∃ t, e.text = .ok t ∧ ExtendedText v ('N' :: t) := by
  obtain ⟨es, rfl⟩ := object_of_accepts h
  rcases e with ⟨delay, triggers⟩
  obtain ⟨htriggers, hdelay⟩ := buildExtended_cases hb
  have hnumbers := byteString_numbers h (by simp [fields, extendedSchema]) htriggers
  rcases delay_text h hdelay with ⟨rfl, hnone⟩ | ⟨n, rfl, hgiven, htext⟩
  · refine ⟨';' :: byteList triggers, rfl, ?_⟩
    rw [byteList_eq]
    exact .intro hnone hnumbers
  · refine ⟨digits n ++ ';' :: byteList triggers, ?_, ?_⟩
    · simp only [Extended.text, htext]
      rfl
    · rw [byteList_eq]
      exact .intro hgiven hnumbers

def optionsSchema : Schema :=
  [.kinds [.array], .unique, .items [names ["hw_handshake", "mon_mode_ctl", "mon_mode_ena"]]]

/-- What is accepted as options are names of them, no two alike. -/
theorem optionsSchema_names {xs : List Value} (h : accepts optionsSchema (.list xs) = true) :
    ∃ ns : List String, Value.items xs = ns.map .str ∧ ns.Nodup ∧
      ∀ name ∈ ns, name ∈ configNames.map (·.1) := by
  obtain ⟨hunique, hitems⟩ := accepts_cons.mp (accepts_cons.mp h).2
  have hnamed : ∀ x ∈ Value.items xs, ∃ name ∈ configNames.map (·.1), x = .str name := by
    intro x hx
    have haccepts := Rule.kept_items.mp (accepts_cons.mp hitems).1 x hx
    obtain ⟨c, hc, hequal⟩ := Rule.kept_enum.mp (accepts_cons.mp haccepts).1
    obtain ⟨name, hname, rfl⟩ := List.mem_map.mp hc
    exact ⟨name, hname, Value.eq_str_of_equal hequal⟩
  obtain ⟨ns, hns⟩ := Value.exists_strs fun x hx => (hnamed x hx).imp fun _ h => h.2
  refine ⟨ns, hns, ?_, fun name hname => ?_⟩
  · rw [← Value.unique_strs_iff, ← Value.items_eq_strs.mp hns]
    exact Rule.kept_unique.mp hunique
  · obtain ⟨other, hother, heq⟩ := hnamed (.str name) (hns ▸ List.mem_map_of_mem hname)
    rwa [Value.str.inj heq]

/-- The options of a built profile come to the sum of the weights that the document names. -/
theorem config_number {ss : List (Value × Value)} (h : accepts setupSchema (.map ss) = true) :
    ConfigNumber (part? (.map ss) ["plotter_config"])
      (buildConfig ((field (Value.entries ss) "plotter_config" (.list [])).walk.toOption.getD
        [])).value := by
  rw [field_entries, part?_singleton]
  cases hx : Value.field? "plotter_config" ss with
  | none => exact .absent
  | some x =>
    have haccepts : accepts optionsSchema x = true :=
      accepts_field h (by simp [fields, setupSchema, optionsSchema]) hx
    obtain ⟨xs, rfl⟩ := array_of_accepts haccepts
    obtain ⟨ns, hns, hdifferent, hknown⟩ := optionsSchema_names haccepts
    refine .named ?_
    change Config.Weighs (Value.items xs) (buildConfig (Value.items xs)).value
    rw [hns]
    exact buildConfig_weighs hdifferent hknown

/-! ## The frames -/

theorem frame_enclosed {i : Instruction} (hi : i.Writable) {t : List Char} (ht : i.text = .ok t) :
    i.frame = .ok (enclosed t) := by
  obtain ⟨s, hs, hframe⟩ := Instruction.frame_writable hi
  rw [ht, Except.ok.injEq] at hs
  rwa [hs]

/-- A part of the set-up, which may be missing, is sent as one frame. -/
theorem part_frame {β : Type} {build : Entries → Except Fault β} (instruction : β → Instruction)
    (text : Value → List Char → Prop) {o : Option Value} {r : Option β}
    (hr : o.mapM (fun v => build (entriesOf v)) = .ok r)
    (hframe : ∀ v b, o = some v → r = some b → build (entriesOf v) = .ok b →
      ∃ t, (instruction b).frame = .ok (enclosed t) ∧ text v t) :
    ∃ frames : List Bytes,
      (r.map instruction).toList.map Instruction.frame = frames.map .ok ∧
        PartFrame text o frames.flatten := by
  rcases optionMapM_eq_ok.mp hr with ⟨rfl, rfl⟩ | ⟨v, b, rfl, hb, rfl⟩
  · exact ⟨[], rfl, .absent⟩
  · obtain ⟨t, ht, htext⟩ := hframe v b rfl rfl hb
    refine ⟨[enclosed t], by simp [ht], ?_⟩
    simpa using PartFrame.present htext

/-- A line supports the settings of a built profile, and the frames of its set-up can all be rendered. They
are the bytes that the document asks for. -/
theorem setup_on_wire {source : String} {doc : Value} {p : Profile}
    (h : build source doc = .ok p) :
    (∃ options, p.serial.options = .ok options) ∧
      ∃ frames : List Bytes, p.setup.map Instruction.frame = frames.map .ok ∧
        SetupBytes doc frames.flatten := by
  refine ⟨options_of_build h, ?_⟩
  have hwritable := setup_writable h
  obtain ⟨hdoc, hp⟩ := build_eq_ok.mp h
  obtain ⟨es, rfl⟩ := object_of_accepts hdoc
  obtain ⟨-, -, -, hconfig, hhandshake, hextended⟩ := ofDocument_eq_ok.mp hp
  obtain ⟨ss, hss, hsetup⟩ := setup_accepts hdoc
  rw [entriesOf, hss, entriesOf, Value.lookup?_entries] at hhandshake hextended
  rw [entriesOf, hss, entriesOf] at hconfig
  simp only [setup, List.cons_append, List.forall_mem_cons, List.forall_mem_append] at hwritable
  obtain ⟨handshakes, hhandshakes, hhandshakePart⟩ :=
    part_frame (fun h => .handshake h.1 h.2) HandshakeText hhandshake fun v b hv hb hbuilt => by
      obtain ⟨t, ht, htext⟩ :=
        handshake_text (accepts_field hsetup (by simp [fields, setupSchema]) hv) hbuilt
      refine ⟨b.1.letter :: t, frame_enclosed (hwritable.2.1 _ (by simp [hb])) ?_, htext⟩
      rw [Instruction.text, ht]
      rfl
  obtain ⟨extendeds, hextendeds, hextendedPart⟩ :=
    part_frame .extended ExtendedText hextended fun v b hv hb hbuilt => by
      obtain ⟨t, ht, htext⟩ :=
        extended_text (accepts_field hsetup (by simp [fields, setupSchema]) hv) hbuilt
      refine ⟨'N' :: t, frame_enclosed (hwritable.2.2 _ (by simp [hb])) ?_, htext⟩
      rw [Instruction.text, ht]
      rfl
  have hoptions : (Instruction.config p.config).frame =
      .ok (enclosed ('@' :: ';' :: digits p.config.value)) :=
    frame_enclosed hwritable.1 rfl
  refine ⟨enclosed ('@' :: ';' :: digits p.config.value) :: (handshakes ++ extendeds), ?_, ?_⟩
  · rw [setup, List.cons_append, List.map_cons, List.map_append, hoptions, hhandshakes, hextendeds,
      List.map_cons, List.map_append]
  · rw [List.flatten_cons, List.flatten_append, ← List.append_assoc]
    refine .intro ?_ ?_ ?_
    · rw [part?_setup hss, hconfig]
      exact config_number hsetup
    · rw [part?_setup hss, part?_singleton]
      exact hhandshakePart
    · rw [part?_setup hss, part?_singleton]
      exact hextendedPart

def fullDocument : Value :=
  .map [(.str "id", .str "full"), (.str "name", .str "Full"), (.str "serial", .map []),
    (.str "setup", .map [
      (.str "plotter_config", .list [.str "mon_mode_ena", .str "hw_handshake"]),
      (.str "handshake", .map [(.str "mode", .int 2), (.str "type", .str "xon_xoff"),
        (.str "xoff_threshold", .double (Double.ofRatio false 80 1)),
        (.str "xon_trigger_chars", .list [.int 17])]),
      (.str "ext_handshake", .map [(.str "interchar_delay", .double (Double.ofRatio false 10 1))])])]

theorem setup_on_wire_full : ∃ (p : Profile) (frames : List Bytes), build "full.yaml" fullDocument = .ok p ∧
    (∃ options, p.serial.options = .ok options) ∧
    p.setup.map Instruction.frame = frames.map .ok ∧ SetupBytes fullDocument frames.flatten ∧
    frames.flatten =
      asciiBytes "\x1b.@;9:\x1b.I80;;17:\x1b.N10;:".toList := by
  have hbytes : ((build "full.yaml" fullDocument).toOption.bind fun p =>
      (p.setup.mapM Instruction.frame).toOption.map List.flatten) =
        some (asciiBytes "\x1b.@;9:\x1b.I80;;17:\x1b.N10;:".toList) := by
    decide +kernel
  obtain ⟨p, hp, hbytes⟩ := Option.bind_eq_some_iff.mp hbytes
  obtain ⟨sent, hsent, hflat⟩ := Option.map_eq_some_iff.mp hbytes
  have hp := toOption_eq_some hp
  obtain ⟨hoptions, frames, hframes, hsetup⟩ := setup_on_wire hp
  have hsame : frames = sent :=
    map_ok_injective (hframes.symm.trans (mapM_eq_ok.mp (toOption_eq_some hsent)))
  exact ⟨p, frames, hp, hoptions, hframes, hsetup, hsame ▸ hflat⟩

end Profile

end PenPlotter
