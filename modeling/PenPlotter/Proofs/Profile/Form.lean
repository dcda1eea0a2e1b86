import PenPlotter.Proofs.Profile.Wire
import PenPlotter.Proofs.Schema.Forms
/-! # The form of profiles

A profile document is a record of records, with numbers, names and lists of small numbers in its
places. The schema accepts this form and no other, whatever the document holds.
-/
namespace PenPlotter

namespace Profile
open Schema
variable {v : Value}

/-! ## The parts of a profile -/

def IsIdStart (c : Char) : Prop := 'a' ≤ c ∧ c ≤ 'z' ∨ '0' ≤ c ∧ c ≤ '9' ∨ c = '_'

/-- Identifiers. A line break may stand at the end. -/
inductive IdText : List Char → Prop
  | plain {c : Char} {cs : List Char} (hc : IsIdStart c)
      (hcs : ∀ d ∈ cs, IsIdStart d ∨ d = '.' ∨ d = '-') : IdText (c :: cs)
  | line {c : Char} {cs : List Char} (hc : IsIdStart c)
      (hcs : ∀ d ∈ cs, IsIdStart d ∨ d = '.' ∨ d = '-') : IdText (c :: (cs ++ ['\n']))

inductive IsId : Value → Prop
  | text {s : String} (hs : IdText s.toList) : IsId (.str s)

inductive IsName : Value → Prop
  | text {s : String} (hs : s ≠ "") : IsName (.str s)
  | codes {s : List Text.Code} (hs : s ≠ []) : IsName (.codes s)

inductive IsOneOf (names : List String) : Value → Prop
  | name {s : String} (hs : s ∈ names) : IsOneOf names (.str s)

def IsAmong (qs : List ℚ) (v : Value) : Prop := ∃ q ∈ qs, v.IsRational q

def IsByte : Value → Prop := Value.IsWithin 0 255

inductive IsByteList : Value → Prop
  | list {xs : List Value} (hxs : ∀ x ∈ Value.items xs, IsByte x) : IsByteList (.list xs)

inductive IsConfig : Value → Prop
  | list {names : List String} (hdifferent : names.Nodup)
      (hnames : ∀ name ∈ names, name ∈ ["hw_handshake", "mon_mode_ctl", "mon_mode_ena"]) :
      IsConfig (.list (names.map .str))

def SerialForm : Value → Prop :=
  Record [] [
    ("baudrate", fun v => ∃ i : ℤ, v.IsRational i ∧ 50 ≤ i),
    ("bytesize", IsAmong [5, 6, 7, 8]),
    ("parity", IsOneOf ["none", "odd", "even", "mark", "space"]),
    ("stopbits", IsAmong [1, 3 / 2, 2]),
    ("flow_control", IsOneOf ["none", "software", "hardware"]),
    ("timeout_s", Value.IsSeconds),
    ("write_timeout_s", fun v => v = .null ∨ v.IsSeconds)]

def XonXoffForm : Value → Prop :=
  Record ["mode", "type", "xoff_threshold"] [
    ("mode", IsAmong [1, 2]),
    ("type", IsOneOf ["xon_xoff"]),
    ("xoff_threshold", IsByte),
    ("xon_trigger_chars", IsByteList)]

def EnqAckForm : Value → Prop :=
  Record ["mode", "type", "block_size", "enq_char"] [
    ("mode", IsAmong [1, 2]),
    ("type", IsOneOf ["enq_ack"]),
    ("block_size", IsByte),
    ("enq_char", IsByte),
    ("ack_string", IsByteList)]

def ExtendedForm : Value → Prop :=
  Record [] [
    ("interchar_delay", fun v => v = .null ∨ v.IsWithin 0 65535),
    ("xoff_trigger_chars", IsByteList)]

def SetupForm : Value → Prop :=
  Record [] [
    ("plotter_config", IsConfig),
    ("handshake", fun v => XonXoffForm v ∨ EnqAckForm v),
    ("ext_handshake", ExtendedForm)]

def ProfileForm : Value → Prop :=
  Record ["id", "name", "serial"] [
    ("id", IsId),
    ("name", IsName),
    ("serial", SerialForm),
    ("setup", SetupForm)]

def leastDocument (id : String) (settings : List (Value × Value)) : Value :=
  .map [(.str "id", .str id), (.str "name", .str "A"), (.str "serial", .map settings)]

/-! ## What the schema accepts -/

theorem isLower_eq (c : Char) : c.isLower = (decide ('a' ≤ c) && decide (c ≤ 'z')) := rfl

theorem first_iff {c : Char} : idForm.first c = true ↔ IsIdStart c := by
  simp [idForm, IsIdStart, isLower_eq, Char.isDigit, Char.le_def, or_assoc]

theorem later_iff {c : Char} : idForm.later c = true ↔ IsIdStart c ∨ c = '.' ∨ c = '-' := by
  simp [idForm, IsIdStart, isLower_eq, Char.isDigit, Char.le_def, or_assoc]

theorem idForm_iff {cs : List Char} : idForm.accepts cs = true ↔ IdText cs := by
  have hlater (cs : List Char) : cs.all idForm.later = true ↔
      ∀ d ∈ cs, IsIdStart d ∨ d = '.' ∨ d = '-' := by
    simp only [List.all_eq_true, later_iff]
  cases cs with
  | nil =>
    refine iff_of_false (by simp [NameForm.accepts]) fun h => ?_
    cases h
  | cons c cs =>
    rw [NameForm.accepts, Bool.and_eq_true, Bool.or_eq_true, Bool.and_eq_true, beq_iff_eq, hlater,
      hlater, first_iff]
    constructor
    · rintro ⟨hc, hcs | ⟨hlast, hcs⟩⟩
      · exact .plain hc hcs
      · rw [← List.dropLast_append_getLast? _ hlast]
        exact .line hc hcs
    · intro h
      generalize hall : c :: cs = all at h
      cases h with
      | plain hc hcs =>
        cases hall
        exact ⟨hc, .inl hcs⟩
      | line hc hcs =>
        cases hall
        exact ⟨hc, .inr ⟨by simp, by simpa using hcs⟩⟩

theorem id_iff : accepts [.kinds [.string], .form idForm] v = true ↔ IsId v := by
  rw [accepts_cons, accepts_cons, Rule.kept_kinds]
  simp only [List.mem_singleton, exists_eq_left, accepts_nil, and_true]
  constructor
  · rintro ⟨hkind, hform⟩
    cases v with
    | str s => exact .text (idForm_iff.mp (Rule.breaches_if_not.mp ((Rule.kept_of_own rfl).mp hform)))
    | codes s => cases hform
    | _ => cases hkind
  · rintro ⟨hs⟩
    exact ⟨rfl, (Rule.kept_of_own rfl).mpr (Rule.breaches_if_not.mpr (idForm_iff.mpr hs))⟩

theorem name_iff : accepts [.kinds [.string], .minLength 1] v = true ↔ IsName v := by
  rw [accepts_cons, accepts_cons, Rule.kept_kinds, Rule.kept_of_own rfl]
  simp only [List.mem_singleton, exists_eq_left, accepts_nil, and_true, Rule.ownBreaches,
    Rule.breaches_if]
  constructor
  · rintro ⟨hkind, hlength⟩
    cases v with
    | str s =>
      refine .text ?_
      rintro rfl
      exact hlength rfl
    | codes s =>
      refine .codes ?_
      rintro rfl
      exact hlength rfl
    | _ => cases hkind
  · rintro (hs | hs)
    · exact ⟨rfl, by simpa [Value.textLength?] using hs⟩
    · exact ⟨rfl, by simpa [Value.textLength?] using hs⟩

theorem oneOf_iff {ns : List String} : accepts [names ns] v = true ↔ IsOneOf ns v := by
  rw [names, accepts_cons, Rule.kept_enum]
  constructor
  · rintro ⟨⟨c, hc, hequal⟩, -⟩
    obtain ⟨name, hname, rfl⟩ := List.mem_map.mp hc
    rw [Value.eq_str_of_equal hequal]
    exact .name hname
  · rintro ⟨hname⟩
    exact ⟨⟨_, List.mem_map_of_mem hname, by simp [Value.equal, Value.same]⟩, accepts_nil⟩

theorem const_iff {name : String} : accepts [.const (.str name)] v = true ↔ IsOneOf [name] v := by
  rw [← oneOf_iff, names, accepts_cons, accepts_cons, Rule.kept_const, Rule.kept_enum]
  simp

theorem among_iff {ns : List ℤ} {qs : List ℚ} (h : qs = ns.map fun n : ℤ => (n : ℚ)) :
    accepts [.enum (ns.map .int)] v = true ↔ IsAmong qs v := by
  rw [accepts_cons, Rule.kept_enum, h, IsAmong]
  simp [accepts_nil, Value.equal_int_iff]

theorem stopBits_iff :
    accepts [.enum [.int 1, .double (Double.ofRatio false 3 2), .int 2]] v = true ↔
      IsAmong [1, 3 / 2, 2] v := by
  have hhalves : Double.ofRatio false 3 2 = .finite false 6755399441055744 (-52) (by decide +kernel) := by
    decide +kernel
  have hexact : (Double.ofRatio false 3 2).exact = 3 / 2 := by
    rw [hhalves]
    norm_num [Double.exact]
  rw [hhalves] at hexact
  rw [accepts_cons, Rule.kept_enum, hhalves, IsAmong]
  simp only [accepts_nil, List.exists_mem_cons_iff, Value.equal_int_iff, Value.equal_double_iff, hexact]
  simp

theorem byteList_iff : accepts byteStringSchema v = true ↔ IsByteList v := by
  constructor
  · intro h
    obtain ⟨xs, rfl⟩ := array_of_accepts h
    exact .list fun x hx =>
      within_iff.mp (accepts_item h (t := byteSchema) (by simp [each, byteStringSchema]) x hx)
  · rintro ⟨hxs⟩
    rw [byteStringSchema, accepts_cons, accepts_cons, Rule.kept_items]
    exact ⟨rfl, fun x hx => within_iff.mpr (hxs x hx), accepts_nil⟩

theorem config_iff : accepts optionsSchema v = true ↔ IsConfig v := by
  constructor
  · intro h
    obtain ⟨xs, rfl⟩ := array_of_accepts h
    obtain ⟨names, hitems, hdifferent, hknown⟩ := optionsSchema_names h
    rw [Value.items_eq_strs.mp hitems]
    exact .list hdifferent hknown
  · rintro @⟨ns, hdifferent, hknown⟩
    have hitems : Value.items (ns.map .str) = ns.map .str := Value.items_eq_strs.mpr rfl
    rw [optionsSchema, accepts_cons, accepts_cons, accepts_cons, Rule.kept_unique, Rule.kept_items,
      hitems, Value.unique_strs_iff, List.forall_mem_map]
    exact ⟨rfl, hdifferent, fun name hname => oneOf_iff.mpr (.name (hknown name hname)), accepts_nil⟩

theorem serial_iff : accepts serialSchema v = true ↔ SerialForm v := by
  unfold serialSchema SerialForm
  refine Describes.free_record_iff ?_ rfl
  exact .cons ⟨rfl, fun _ => integerFrom_iff⟩ <|
    .cons ⟨rfl, fun _ => among_iff (by simp : ([5, 6, 7, 8] : List ℚ) = ([5, 6, 7, 8] : List ℤ).map _)⟩ <|
    .cons ⟨rfl, fun _ => oneOf_iff⟩ <|
    .cons ⟨rfl, fun _ => stopBits_iff⟩ <|
    .cons ⟨rfl, fun _ => oneOf_iff⟩ <|
    .cons ⟨rfl, fun _ => seconds_iff⟩ <|
    .cons ⟨rfl, fun _ => secondsOrNull_iff⟩ .nil

theorem mode_iff : accepts modeSchema v = true ↔ IsAmong [1, 2] v :=
  among_iff (by simp : ([1, 2] : List ℚ) = ([1, 2] : List ℤ).map _)

theorem xonXoff_iff : accepts xonXoffSchema v = true ↔ XonXoffForm v := by
  unfold xonXoffSchema XonXoffForm
  refine Describes.record_iff ?_ rfl
  exact .cons ⟨rfl, fun _ => mode_iff⟩ <|
    .cons ⟨rfl, fun _ => const_iff⟩ <|
    .cons ⟨rfl, fun _ => within_iff⟩ <|
    .cons ⟨rfl, fun _ => byteList_iff⟩ .nil

theorem enqAck_iff : accepts enqAckSchema v = true ↔ EnqAckForm v := by
  unfold enqAckSchema EnqAckForm
  refine Describes.record_iff ?_ rfl
  exact .cons ⟨rfl, fun _ => mode_iff⟩ <|
    .cons ⟨rfl, fun _ => const_iff⟩ <|
    .cons ⟨rfl, fun _ => within_iff⟩ <|
    .cons ⟨rfl, fun _ => within_iff⟩ <|
    .cons ⟨rfl, fun _ => byteList_iff⟩ .nil

theorem extended_iff : accepts extendedSchema v = true ↔ ExtendedForm v := by
  unfold extendedSchema ExtendedForm
  refine Describes.free_record_iff ?_ rfl
  exact .cons ⟨rfl, fun _ => withinOrNull_iff⟩ <| .cons ⟨rfl, fun _ => byteList_iff⟩ .nil

/-- The breaches of the one handshake by the other can be told: they show keys and names. -/
theorem xonXoff_faultless (h : EnqAckForm v) : Schema.Faultless xonXoffSchema v := by
  rcases h with @⟨es, hkeys, -, hparts⟩
  have habsent {name : String} (hname : name ∉ ["mode", "type", "block_size", "enq_char", "ack_string"]) :
      Value.field? name es = none :=
    Rule.field?_of_closed ((closed_iff rfl).mpr hkeys) hname
  simp only [xonXoffSchema, faultless_cons, Rule.faultless_properties, List.forall_mem_cons]
  refine ⟨Rule.faultless_of_kept rfl rfl, Rule.faultless_closed fun e he => ?_, Rule.faultless_required,
    ⟨fun x hx => ?_, fun x _ => ⟨Rule.faultless_const, faultless_nil⟩, ?_, ?_, by simp⟩, faultless_nil⟩
  · obtain ⟨p, -, hkey⟩ := hkeys e he
    rw [hkey]
    exact ⟨rfl, rfl⟩
  · have hmode : IsAmong [1, 2] x := hparts _ List.mem_cons_self x hx
    exact faultless_cons.mpr ⟨Rule.faultless_of_kept rfl (accepts_cons.mp (mode_iff.mpr hmode)).1,
      faultless_nil⟩
  · simp [habsent]
  · simp [habsent]

theorem handshake_iff :
    accepts [.anyOf [xonXoffSchema, enqAckSchema]] v = true ↔ XonXoffForm v ∨ EnqAckForm v := by
  constructor
  · intro h
    obtain ⟨branch, hmem, hbranch⟩ := Rule.kept_anyOf (accepts_cons.mp h).1
    simp only [List.mem_cons, List.not_mem_nil, or_false] at hmem
    rcases hmem with rfl | rfl
    · exact .inl (xonXoff_iff.mp hbranch)
    · exact .inr (enqAck_iff.mp hbranch)
  · intro h
    refine accepts_cons.mpr ⟨?_, accepts_nil⟩
    rcases h with h | h
    · change (Rule.anyOf ([] ++ xonXoffSchema :: [enqAckSchema])).Kept v
      exact Rule.kept_choice [] (by simp) (xonXoff_iff.mpr h)
    · change (Rule.anyOf ([xonXoffSchema] ++ enqAckSchema :: [])).Kept v
      exact Rule.kept_choice [_] (by simpa using xonXoff_faultless h) (enqAck_iff.mpr h)

theorem setup_iff : accepts setupSchema v = true ↔ SetupForm v := by
  unfold setupSchema SetupForm
  refine Describes.free_record_iff ?_ rfl
  exact .cons ⟨rfl, fun _ => config_iff⟩ <|
    .cons ⟨rfl, fun _ => handshake_iff⟩ <|
    .cons ⟨rfl, fun _ => extended_iff⟩ .nil

/-- A document is checked without an error just where it has the form of a profile. -/
theorem check_form_iff (role : DocumentRole) (source : String) (doc : Value) :
    Schema.check schema role source doc = .ok () ↔ ProfileForm doc := by
  rw [check_eq_ok]
  unfold schema ProfileForm
  refine Describes.record_iff ?_ rfl
  exact .cons ⟨rfl, fun _ => id_iff⟩ <|
    .cons ⟨rfl, fun _ => name_iff⟩ <|
    .cons ⟨rfl, fun _ => serial_iff⟩ <|
    .cons ⟨rfl, fun _ => setup_iff⟩ .nil

end Profile

end PenPlotter
