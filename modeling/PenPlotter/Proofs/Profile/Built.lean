import PenPlotter.Profile.Build
import PenPlotter.Proofs.Plot.InstructionText
import PenPlotter.Proofs.Schema.Kept
/-! # What built profiles hold

A profile is built from a document only where the schema accepts it, and the schema bounds every number
of the set-up. The instructions of a built profile therefore have frames.
-/
namespace PenPlotter

namespace Profile
open Schema

theorem field_entries (name : String) (es : List (Value × Value)) (absent : Value) :
    field (Value.entries es) name absent = (Value.field? name es).getD absent := by
  rw [field, Value.lookup?_entries]

/-- A profile is built where the schema accepts the document and its numbers have their forms. -/
theorem build_eq_ok {source : String} {doc : Value} {p : Profile} :
    build source doc = .ok p ↔
      accepts schema doc = true ∧ ofDocument (entriesOf doc) = .ok p := by
  simp only [build, bind_eq_ok, mapError_eq_ok, check_eq_ok, exists_const]

theorem ofDocument_eq_ok {es : Entries} {p : Profile} :
    ofDocument es = .ok p ↔
      p.id = textOf (field es "id" .null) ∧ p.name = codesOf (field es "name" .null) ∧
      buildSerial (entriesOf (field es "serial" .null)) = .ok p.serial ∧
      p.config = buildConfig ((field (entriesOf (field es "setup" (.map []))) "plotter_config"
        (.list [])).walk.toOption.getD []) ∧
      (Value.lookup? "handshake" (entriesOf (field es "setup" (.map [])))).mapM
        (fun v => buildHandshake (entriesOf v)) = .ok p.handshake ∧
      (Value.lookup? "ext_handshake" (entriesOf (field es "setup" (.map [])))).mapM
        (fun v => buildExtended (entriesOf v)) = .ok p.extended := by
  simp only [ofDocument, bind_eq_ok]
  constructor
  · rintro ⟨serial, hserial, handshake, hhandshake, extended, hextended, hp⟩
    cases hp
    exact ⟨rfl, rfl, hserial, rfl, hhandshake, hextended⟩
  · rintro ⟨hid, hname, hserial, hconfig, hhandshake, hextended⟩
    refine ⟨_, hserial, _, hhandshake, _, hextended, ?_⟩
    rw [← hid, ← hname, ← hconfig]
    rfl

variable {s : Schema} {es : List (Value × Value)} {v : Value}

/-- An integer that was read from a field is within the bounds of its rules. -/
theorem toInt_bounds (h : accepts s (.map es) = true) {name : String} {ks : List Kind} {a b : ℤ}
    (hks : ∀ k ∈ ks, k = .integer ∨ k = .null)
    (hs : (name, [.kinds ks, .minimum a, .maximum b]) ∈ s.fields) {i : ℤ}
    (hi : ((Value.field? name es).getD .null).toInt = .ok i) : a ≤ i ∧ i ≤ b := by
  cases hx : Value.field? name es with
  | none => simp [hx, Value.toInt] at hi
  | some x =>
    rw [hx, Option.getD_some] at hi
    rcases Value.toInt_of_accepts hks (accepts_field h hs hx) with rfl | ⟨j, hj, hbounds⟩
    · cases hi
    · rw [hi] at hj
      cases hj
      exact hbounds

theorem isInteger_of_bounds {i : ℤ} (hlo : 0 ≤ i) (hhi : i ≤ 65535) : (Value.int i).IsInteger :=
  Decimal.writable_of_lt (k := 5) (by decide) (show i.natAbs < 10 ^ 5 by omega)

theorem number_writable (h : accepts s (.map es) = true) {name : String}
    (hs : (name, byteSchema) ∈ s.fields) (hv : number (Value.entries es) name = .ok v) :
    v.IsInteger := by
  obtain ⟨i, hi, hiv⟩ := bind_eq_ok.mp hv
  cases hiv
  rw [field_entries] at hi
  obtain ⟨hlo, hhi⟩ := toInt_bounds h (by simp) hs hi
  exact isInteger_of_bounds hlo (hhi.trans (by decide))

/-- The type that names a handshake is the one that its schema asks for. -/
theorem type_of_accepts (h : accepts s (.map es) = true) (hn : "type" ∈ s.needed) {t : String}
    (hs : ("type", [.const (.str t)]) ∈ s.fields) :
    textOf (field (Value.entries es) "type" .null) = t := by
  obtain ⟨x, hx⟩ := accepts_needed h hn
  have hconst := accepts_field h hs hx
  rw [accepts_cons, Rule.kept_const] at hconst
  rw [field_entries, hx, Value.eq_str_of_equal hconst.1]
  rfl

theorem handshake_writable {built : HandshakeMode × Handshake}
    (hv : accepts [.anyOf [xonXoffSchema, enqAckSchema]] v = true)
    (hb : buildHandshake (entriesOf v) = .ok built) : built.2.Writable := by
  obtain ⟨branch, hmem, hbranch⟩ := Rule.kept_anyOf (accepts_cons.mp hv).1
  simp only [List.mem_cons, List.not_mem_nil, or_false] at hmem
  rcases hmem with rfl | rfl
  · obtain ⟨es, rfl⟩ := object_of_accepts hbranch
    have htype : textOf (field (Value.entries es) "type" .null) = "xon_xoff" :=
      type_of_accepts hbranch (by simp [needed, xonXoffSchema]) (by simp [fields, xonXoffSchema])
    simp only [entriesOf, buildHandshake, htype, if_neg (show ¬ "xon_xoff" = "enq_ack" by decide),
      bind_eq_ok] at hb
    obtain ⟨threshold, hthreshold, triggers, -, hbuilt⟩ := hb
    cases hbuilt
    exact number_writable hbranch (by simp [fields, xonXoffSchema]) hthreshold
  · obtain ⟨es, rfl⟩ := object_of_accepts hbranch
    have htype : textOf (field (Value.entries es) "type" .null) = "enq_ack" :=
      type_of_accepts hbranch (by simp [needed, enqAckSchema]) (by simp [fields, enqAckSchema])
    simp only [entriesOf, buildHandshake, htype, ↓reduceIte, bind_eq_ok] at hb
    obtain ⟨block, hblock, enq, henq, answer, -, hbuilt⟩ := hb
    cases hbuilt
    exact ⟨number_writable hbranch (by simp [fields, enqAckSchema]) hblock,
      number_writable hbranch (by simp [fields, enqAckSchema]) henq⟩

theorem extended_writable {e : Extended} (hv : accepts extendedSchema v = true)
    (hb : buildExtended (entriesOf v) = .ok e) : e.Writable := by
  obtain ⟨es, rfl⟩ := object_of_accepts hv
  simp only [buildExtended, entriesOf, field_entries] at hb
  split at hb
  · simp only [bind_eq_ok] at hb
    obtain ⟨delay, hdelay, triggers, -, he⟩ := hb
    cases hdelay
    cases he
    exact .inl rfl
  · simp only [bind_eq_ok] at hb
    obtain ⟨i, hi, delay, hdelay, triggers, -, he⟩ := hb
    cases hdelay
    cases he
    have hmem : ("interchar_delay", [.kinds [.integer, .null], .minimum 0, .maximum 65535]) ∈
        fields extendedSchema := by
      simp [fields, extendedSchema]
    obtain ⟨hlo, hhi⟩ := toInt_bounds hv (by simp) hmem hi
    exact .inr (isInteger_of_bounds hlo hhi)

theorem setup_accepts (h : accepts schema (.map es) = true) :
    ∃ ss, field (Value.entries es) "setup" (.map []) = .map ss ∧
      accepts setupSchema (.map ss) = true := by
  rw [field_entries]
  cases hx : Value.field? "setup" es with
  | none => exact ⟨[], rfl, rfl⟩
  | some x =>
    have hsetup := accepts_field h (t := setupSchema) (by simp [fields, schema]) hx
    obtain ⟨ss, rfl⟩ := object_of_accepts hsetup
    exact ⟨ss, rfl, hsetup⟩

/-- The instructions of a built profile can be rendered. -/
theorem setup_writable {source : String} {doc : Value} {p : Profile}
    (h : build source doc = .ok p) : ∀ i ∈ p.setup, i.Writable := by
  obtain ⟨hdoc, hp⟩ := build_eq_ok.mp h
  obtain ⟨es, rfl⟩ := object_of_accepts hdoc
  obtain ⟨-, -, -, -, hhandshake, hextended⟩ := ofDocument_eq_ok.mp hp
  obtain ⟨ss, hss, hsetup⟩ := setup_accepts hdoc
  rw [entriesOf, hss, entriesOf, Value.lookup?_entries, optionMapM_eq_ok] at hhandshake hextended
  simp only [setup, List.cons_append, List.forall_mem_cons, List.forall_mem_append]
  refine ⟨trivial, ?_, ?_⟩
  · rcases hhandshake with ⟨-, hnone⟩ | ⟨v, built, hv, hbuilt, hsome⟩
    · simp [hnone]
    · have hacc := accepts_field hsetup (by simp [fields, setupSchema]; rfl) hv
      have hw : (Instruction.handshake built.1 built.2).Writable := handshake_writable hacc hbuilt
      simpa [hsome] using hw
  · rcases hextended with ⟨-, hnone⟩ | ⟨v, built, hv, hbuilt, hsome⟩
    · simp [hnone]
    · have hacc := accepts_field hsetup (by simp [fields, setupSchema]; rfl) hv
      have hw : (Instruction.extended built).Writable := extended_writable hacc hbuilt
      simpa [hsome] using hw

end Profile

end PenPlotter
