import PenPlotter.Proofs.Profile.Built
import PenPlotter.Proofs.Schema.Told
/-! # Which documents are built

The schema takes any number where seconds are asked for, and a double without a fraction where an
integer is. Building asks for more in two places: seconds have to be within the range of doubles, and
the items of a byte string have to be integers in form. Where a document that the schema accepts gives
both, a profile is built from it.
-/
namespace PenPlotter

namespace Value

def Fits (v : Value) : Prop := ∀ i, v = .int i → (Double.ofInt? i).isSome = true

def Integers (v : Value) : Prop := ∀ xs, v = .list xs → ∀ x ∈ items xs, ∃ i, x = .int i

variable {v : Value}

theorem toDouble_iff (h : Kind.number.holds v = true) : (∃ x, v.toDouble = .ok x) ↔ v.Fits := by
  cases v with
  | int i =>
    simp only [Fits, toDouble, int.injEq, forall_eq']
    cases Double.ofInt? i <;> simp
  | double x => simp [Fits, toDouble]
  | _ => cases h

theorem toInt_of_equal {n : ℤ} (h : v.equal (.int n) = true) : ∃ i, v.toInt = .ok i := by
  cases v with
  | int i => exact ⟨i, rfl⟩
  | double x =>
    cases x with
    | finite s m e hc => exact ⟨_, rfl⟩
    | infinite s => cases s <;> simp [equal, same, Double.compareInt] at h
    | nan p => simp [equal, same, Double.compareInt] at h
  | _ => simp [equal, same] at h

theorem toByte_iff (h : Schema.accepts Profile.byteSchema v = true) :
    (∃ b, v.toByte = .ok b) ↔ ∃ i, v = .int i := by
  have hint : ∃ i, v.toInt = .ok i ∧ 0 ≤ i ∧ i ≤ 255 := by
    rcases toInt_of_accepts (by simp) h with rfl | hint
    · cases h
    · exact hint
  obtain ⟨i, hi, hlo, hhi⟩ := hint
  cases v with
  | int j =>
    cases hi
    have hrange : 0 ≤ i ∧ i < 256 := ⟨hlo, by omega⟩
    simp [toByte, hrange]
  | double x => simp [toByte]
  | bool b => cases h
  | _ => cases hi

theorem toBytes_iff (h : Schema.accepts Profile.byteStringSchema v = true) :
    (∃ b, v.toBytes = .ok b) ↔ v.Integers := by
  obtain ⟨xs, rfl⟩ := Schema.array_of_accepts h
  have hrest := (Schema.accepts_cons.mp h).2
  have hitems := Rule.kept_items.mp (Schema.accepts_cons.mp hrest).1
  have hbytes : (∃ b, (list xs).toBytes = .ok b) ↔ ∀ x ∈ items xs, ∃ b, x.toByte = .ok b :=
    exists_mapM_ok
  simp only [Integers, list.injEq, forall_eq']
  exact hbytes.trans (forall₂_congr fun x hx => toByte_iff (hitems x hx))

end Value

namespace Profile
open Schema

def part? (doc : Value) : List String → Option Value
  | [] => some doc
  | name :: rest => (Value.lookup? name (entriesOf doc)).bind fun v => part? v rest

theorem part?_cons (es : List (Value × Value)) (name : String) (path : List String) :
    part? (.map es) (name :: path) = (Value.field? name es).bind fun v => part? v path := by
  rw [part?, entriesOf, Value.lookup?_entries]

theorem part?_singleton (es : List (Value × Value)) (name : String) :
    part? (.map es) [name] = Value.field? name es := by
  rw [part?_cons]
  cases Value.field? name es <;> rfl

/-- The numbers of a document have the forms in which a profile uses them. -/
structure Convertible (doc : Value) : Prop where
  seconds : ∀ name ∈ ["timeout_s", "write_timeout_s"],
    ∀ v, part? doc ["serial", name] = some v → v.Fits
  byteStrings : ∀ path ∈ [["handshake", "xon_trigger_chars"], ["handshake", "ack_string"],
    ["ext_handshake", "xoff_trigger_chars"]], ∀ v, part? doc ("setup" :: path) = some v → v.Integers

variable {s : Schema} {es : List (Value × Value)} {v : Value}

theorem exists_field_iff {β : Type} (f : Value → Except Fault β) (name : String) {absent : Value}
    (habsent : ∃ y, f absent = .ok y) :
    (∃ y, f (field (Value.entries es) name absent) = .ok y) ↔
      ∀ x, Value.field? name es = some x → ∃ y, f x = .ok y := by
  rw [field_entries]
  cases Value.field? name es with
  | none => exact iff_of_true habsent nofun
  | some x => simp

theorem exists_mapM_iff {β : Type} {f : Value → Except Fault β} {o : Option Value} :
    (∃ r, o.mapM f = .ok r) ↔ ∀ x, o = some x → ∃ y, f x = .ok y := by
  cases o with
  | none => exact iff_of_true ⟨none, rfl⟩ nofun
  | some x =>
    simp only [optionMapM_eq_ok, Option.some.injEq, forall_eq']
    constructor
    · rintro ⟨r, ⟨hnone, -⟩ | ⟨a, b, ha, hb, -⟩⟩
      · cases hnone
      · cases ha
        exact ⟨b, hb⟩
    · rintro ⟨y, hy⟩
      exact ⟨some y, .inr ⟨x, y, rfl, hy, rfl⟩⟩

theorem toInt_of_integer {rules : List Rule} (h : accepts (.kinds [.integer] :: rules) v = true) :
    ∃ i, v.toInt = .ok i := by
  obtain ⟨k, hk, hholds⟩ := Rule.kept_kinds.mp (accepts_cons.mp h).1
  rw [List.mem_singleton.mp hk] at hholds
  obtain ⟨i, hi, -⟩ := Value.integer_of_holds hholds
  exact ⟨i, hi⟩

theorem toInt_of_enum (ns : List ℤ) (h : accepts [.enum (ns.map .int)] v = true) :
    ∃ i, v.toInt = .ok i := by
  obtain ⟨c, hc, hequal⟩ := Rule.kept_enum.mp (accepts_cons.mp h).1
  obtain ⟨n, -, rfl⟩ := List.mem_map.mp hc
  exact Value.toInt_of_equal hequal

theorem secondsOrNone_iff {rules : List Rule}
    (h : accepts (.kinds [.number, .null] :: rules) v = true) :
    (∃ w, secondsOrNone v = .ok w) ↔ v.Fits := by
  obtain ⟨k, hk, hholds⟩ := Rule.kept_kinds.mp (accepts_cons.mp h).1
  cases v with
  | null => simp [secondsOrNone, Value.Fits]
  | int i =>
    rw [← Value.toDouble_iff rfl]
    constructor
    · rintro ⟨w, hw⟩
      obtain ⟨x, hx, -⟩ := bind_eq_ok.mp hw
      exact ⟨x, hx⟩
    · rintro ⟨x, hx⟩
      exact ⟨.double x, bind_eq_ok.mpr ⟨x, hx, rfl⟩⟩
  | double x => simp [secondsOrNone, Value.Fits, Value.toDouble]
  | _ =>
    simp only [List.mem_cons, List.not_mem_nil, or_false] at hk
    rcases hk with rfl | rfl <;> cases hholds

theorem buildSerial_eq_ok {ps : Entries} {settings : Settings} :
    buildSerial ps = .ok settings ↔ ∃ b, (field ps "baudrate" (.int 9600)).toInt = .ok b ∧
      ∃ y, (field ps "bytesize" (.int 8)).toInt = .ok y ∧
      ∃ t, (field ps "timeout_s" (.double (Double.ofRatio false 1 1))).toDouble = .ok t ∧
      ∃ w, secondsOrNone (field ps "write_timeout_s" .null) = .ok w ∧
        settings = { baudrate := .int b, bytesize := .int y
                     parity := field ps "parity" (.str "none")
                     stopbits := field ps "stopbits" (.int 1)
                     flowControl := field ps "flow_control" (.str "software")
                     timeout := .double t, writeTimeout := w } := by
  simp only [buildSerial, bind_eq_ok, pure, Except.pure, Except.ok.injEq, eq_comm (a := settings)]

/-- The settings of the line are built where the seconds have doubles. -/
theorem buildSerial_iff (h : accepts serialSchema (.map es) = true) :
    (∃ settings, buildSerial (Value.entries es) = .ok settings) ↔
      ∀ name ∈ ["timeout_s", "write_timeout_s"], ∀ x, Value.field? name es = some x → x.Fits := by
  have hbaudrate : ∃ i, (field (Value.entries es) "baudrate" (.int 9600)).toInt = .ok i :=
    (exists_field_iff Value.toInt "baudrate" ⟨_, rfl⟩).mpr fun x hx =>
      toInt_of_integer (accepts_field h (by simp [fields, serialSchema]; rfl) hx)
  have hbytesize : ∃ i, (field (Value.entries es) "bytesize" (.int 8)).toInt = .ok i :=
    (exists_field_iff Value.toInt "bytesize" ⟨_, rfl⟩).mpr fun x hx =>
      toInt_of_enum [5, 6, 7, 8] (accepts_field h (by simp [fields, serialSchema]) hx)
  have htimeout : (∃ t, (field (Value.entries es) "timeout_s"
      (.double (Double.ofRatio false 1 1))).toDouble = .ok t) ↔
      ∀ x, Value.field? "timeout_s" es = some x → x.Fits := by
    refine (exists_field_iff Value.toDouble "timeout_s" ⟨_, rfl⟩).trans
      (forall₂_congr fun x hx => Value.toDouble_iff ?_)
    have hacc : accepts [.kinds [.number], .above 0] x = true :=
      accepts_field h (by simp [fields, serialSchema]) hx
    simpa using Rule.kept_kinds.mp (accepts_cons.mp hacc).1
  have hwrite : (∃ w, secondsOrNone (field (Value.entries es) "write_timeout_s" .null) = .ok w) ↔
      ∀ x, Value.field? "write_timeout_s" es = some x → x.Fits :=
    (exists_field_iff secondsOrNone "write_timeout_s" ⟨_, rfl⟩).trans
      (forall₂_congr fun x hx => secondsOrNone_iff
        (accepts_field h (by simp [fields, serialSchema]; rfl) hx))
  obtain ⟨b, hb⟩ := hbaudrate
  obtain ⟨y, hy⟩ := hbytesize
  rw [List.forall_mem_cons, List.forall_mem_singleton, ← htimeout, ← hwrite]
  simp only [buildSerial_eq_ok]
  constructor
  · rintro ⟨settings, -, -, -, -, t, ht, w, hw, -⟩
    exact ⟨⟨t, ht⟩, w, hw⟩
  · rintro ⟨⟨t, ht⟩, w, hw⟩
    exact ⟨_, b, hb, y, hy, t, ht, w, hw, rfl⟩

theorem number_of_accepts (h : accepts s (.map es) = true) (name : String) {rules : List Rule}
    (hneeded : name ∈ s.needed) (hs : (name, .kinds [.integer] :: rules) ∈ s.fields) :
    ∃ n, number (Value.entries es) name = .ok n := by
  obtain ⟨x, hx⟩ := accepts_needed h hneeded
  obtain ⟨i, hi⟩ := toInt_of_integer (accepts_field h hs hx)
  refine ⟨.int i, bind_eq_ok.mpr ⟨i, ?_, rfl⟩⟩
  rwa [field_entries, hx]

theorem byteString_iff (h : accepts s (.map es) = true) (name : String)
    (hs : (name, byteStringSchema) ∈ s.fields) :
    (∃ b, byteString (Value.entries es) name = .ok b) ↔
      ∀ x, Value.field? name es = some x → x.Integers :=
  (exists_field_iff Value.toBytes name ⟨[], rfl⟩).trans
    (forall₂_congr fun _ hx => Value.toBytes_iff (accepts_field h hs hx))

/-- A handshake is built where its byte strings are integers in form. -/
theorem buildHandshake_iff (h : accepts [.anyOf [xonXoffSchema, enqAckSchema]] v = true) :
    (∃ built, buildHandshake (entriesOf v) = .ok built) ↔
      ∀ name ∈ ["xon_trigger_chars", "ack_string"], ∀ x, part? v [name] = some x → x.Integers := by
  obtain ⟨branch, hmem, hbranch⟩ := Rule.kept_anyOf (accepts_cons.mp h).1
  simp only [List.mem_cons, List.not_mem_nil, or_false] at hmem
  rcases hmem with rfl | rfl
  · obtain ⟨es, rfl⟩ := object_of_accepts hbranch
    have htype : textOf (field (Value.entries es) "type" .null) = "xon_xoff" :=
      type_of_accepts hbranch (by simp [needed, xonXoffSchema]) (by simp [fields, xonXoffSchema])
    have hother : Value.field? "ack_string" es = none :=
      Rule.field?_of_closed (accepts_cons.mp (accepts_cons.mp hbranch).2).1 (by decide)
    obtain ⟨n, hn⟩ := number_of_accepts hbranch "xoff_threshold"
      (by simp [needed, xonXoffSchema]) (by simp [fields, xonXoffSchema, byteSchema]; rfl)
    have hbuilt : (∃ built, buildHandshake (Value.entries es) = .ok built) ↔
        ∃ b, byteString (Value.entries es) "xon_trigger_chars" = .ok b := by
      simp only [buildHandshake, htype, if_neg (show ¬ "xon_xoff" = "enq_ack" by decide),
        bind_eq_ok, hn]
      constructor
      · rintro ⟨-, -, -, b, hb, -⟩
        exact ⟨b, hb⟩
      · rintro ⟨b, hb⟩
        exact ⟨_, n, rfl, b, hb, rfl⟩
    rw [entriesOf, hbuilt, byteString_iff hbranch "xon_trigger_chars"
      (by simp [fields, xonXoffSchema])]
    simp [part?_singleton, hother]
  · obtain ⟨es, rfl⟩ := object_of_accepts hbranch
    have htype : textOf (field (Value.entries es) "type" .null) = "enq_ack" :=
      type_of_accepts hbranch (by simp [needed, enqAckSchema]) (by simp [fields, enqAckSchema])
    have hother : Value.field? "xon_trigger_chars" es = none :=
      Rule.field?_of_closed (accepts_cons.mp (accepts_cons.mp hbranch).2).1 (by decide)
    obtain ⟨n, hn⟩ := number_of_accepts hbranch "block_size"
      (by simp [needed, enqAckSchema]) (by simp [fields, enqAckSchema, byteSchema]; rfl)
    obtain ⟨m, hm⟩ := number_of_accepts hbranch "enq_char"
      (by simp [needed, enqAckSchema]) (by simp [fields, enqAckSchema, byteSchema]; rfl)
    have hbuilt : (∃ built, buildHandshake (Value.entries es) = .ok built) ↔
        ∃ b, byteString (Value.entries es) "ack_string" = .ok b := by
      simp only [buildHandshake, htype, ↓reduceIte, bind_eq_ok, hn, hm]
      constructor
      · rintro ⟨-, -, -, -, -, b, hb, -⟩
        exact ⟨b, hb⟩
      · rintro ⟨b, hb⟩
        exact ⟨_, n, rfl, m, rfl, b, hb, rfl⟩
    rw [entriesOf, hbuilt, byteString_iff hbranch "ack_string" (by simp [fields, enqAckSchema])]
    simp [part?_singleton, hother]

theorem delay_of_accepts (h : accepts extendedSchema (.map es) = true) :
    field (Value.entries es) "interchar_delay" .null = .null ∨
      ∃ i, (field (Value.entries es) "interchar_delay" .null).toInt = .ok i := by
  rw [field_entries]
  cases hx : Value.field? "interchar_delay" es with
  | none => exact .inl rfl
  | some x =>
    have hacc : accepts [.kinds [.integer, .null], .minimum 0, .maximum 65535] x = true :=
      accepts_field h (by simp [fields, extendedSchema]) hx
    rcases Value.toInt_of_accepts (by simp) hacc with rfl | ⟨i, hi, -⟩
    · exact .inl rfl
    · exact .inr ⟨i, hi⟩

theorem buildExtended_iff (h : accepts extendedSchema v = true) :
    (∃ e, buildExtended (entriesOf v) = .ok e) ↔
      ∀ name ∈ ["xoff_trigger_chars"], ∀ x, part? v [name] = some x → x.Integers := by
  obtain ⟨es, rfl⟩ := object_of_accepts h
  have hbuilt : (∃ e, buildExtended (Value.entries es) = .ok e) ↔
      ∃ b, byteString (Value.entries es) "xoff_trigger_chars" = .ok b := by
    simp only [buildExtended]
    split
    next => 
      constructor
      · rintro ⟨e, he⟩
        simp only [bind_eq_ok] at he
        obtain ⟨-, -, b, hb, -⟩ := he
        exact ⟨b, hb⟩
      · rintro ⟨b, hb⟩
        exact ⟨_, bind_eq_ok.mpr ⟨_, rfl, bind_eq_ok.mpr ⟨b, hb, rfl⟩⟩⟩
    next hnull =>
      obtain ⟨i, hi⟩ := (delay_of_accepts h).resolve_left hnull
      simp only [bind_eq_ok, hi]
      constructor
      · rintro ⟨e, -, -, -, -, b, hb, -⟩
        exact ⟨b, hb⟩
      · rintro ⟨b, hb⟩
        exact ⟨_, i, rfl, _, rfl, b, hb, rfl⟩
  rw [entriesOf, hbuilt, List.forall_mem_singleton, part?_singleton]
  exact byteString_iff h "xoff_trigger_chars" (by simp [fields, extendedSchema])

theorem part?_setup {ss : List (Value × Value)}
    (hss : field (Value.entries es) "setup" (.map []) = .map ss) (name : String)
    (path : List String) : part? (.map es) ("setup" :: name :: path) =
      part? (.map ss) (name :: path) := by
  rw [field_entries] at hss
  rw [part?_cons]
  cases hx : Value.field? "setup" es with
  | none =>
    rw [hx] at hss
    cases hss
    rfl
  | some x =>
    rw [hx, Option.getD_some] at hss
    rw [hss, Option.bind_some]

variable {ss : List (Value × Value)}

/-- A part of the set-up, which may be missing, is built where its byte strings can be. -/
theorem optional_iff {β : Type} {build : List (Value × Value) → Except Fault β} {s : Schema}
    {names : List String} (hbuild : ∀ {v : Value}, accepts s v = true →
      ((∃ built, build (entriesOf v) = .ok built) ↔
        ∀ name ∈ names, ∀ x, part? v [name] = some x → x.Integers))
    (h : accepts setupSchema (.map ss) = true) (group : String)
    (hs : (group, s) ∈ setupSchema.fields) :
    (∃ r, (Value.field? group ss).mapM (fun v => build (entriesOf v)) = .ok r) ↔
      ∀ name ∈ names, ∀ x, part? (.map ss) [group, name] = some x → x.Integers := by
  have hbuilt (v : Value) (hv : Value.field? group ss = some v) :=
    hbuild (accepts_field h hs hv)
  simp only [exists_mapM_iff, part?_cons, Option.bind_eq_some_iff]
  constructor
  · rintro hall name hname x ⟨v, hv, hx⟩
    exact (hbuilt v hv).mp (hall v hv) name hname x hx
  · intro hall v hv
    exact (hbuilt v hv).mpr fun name hname x hx => hall name hname x ⟨v, hv, hx⟩

/-- A profile is built from a document that the schema accepts where its numbers have their forms. -/
theorem ofDocument_iff {doc : Value} (h : accepts schema doc = true) :
    (∃ p, ofDocument (entriesOf doc) = .ok p) ↔ Convertible doc := by
  obtain ⟨es, rfl⟩ := object_of_accepts h
  obtain ⟨x, hx⟩ : ∃ x, Value.field? "serial" es = some x :=
    accepts_needed h (by simp [needed, schema])
  have hserial : accepts serialSchema x = true := accepts_field h (by simp [fields, schema]) hx
  obtain ⟨ps, rfl⟩ := object_of_accepts hserial
  obtain ⟨ss, hss, hsetup⟩ := setup_accepts h
  have hps : field (Value.entries es) "serial" .null = .map ps := by rw [field_entries, hx]; rfl
  have hparts : (∃ p, ofDocument (entriesOf (.map es)) = .ok p) ↔
      (∃ settings, buildSerial (Value.entries ps) = .ok settings) ∧
      (∃ r, (Value.field? "handshake" ss).mapM (fun v => buildHandshake (entriesOf v)) = .ok r) ∧
      ∃ r, (Value.field? "ext_handshake" ss).mapM (fun v => buildExtended (entriesOf v)) = .ok r := by
    simp only [ofDocument_eq_ok, entriesOf, hps, hss, Value.lookup?_entries]
    constructor
    · rintro ⟨p, -, -, hserial, -, hhandshake, hextended⟩
      exact ⟨⟨_, hserial⟩, ⟨_, hhandshake⟩, _, hextended⟩
    · rintro ⟨⟨settings, hserial⟩, ⟨handshake, hhandshake⟩, extended, hextended⟩
      exact ⟨{ id := _, name := _, serial := settings, config := _, handshake, extended },
        rfl, rfl, hserial, rfl, hhandshake, hextended⟩
  have hseconds (name : String) : part? (.map es) ["serial", name] = Value.field? name ps := by
    rw [part?_cons, hx, Option.bind_some, part?_singleton]
  have hhandshake := optional_iff buildHandshake_iff hsetup "handshake"
    (by simp [fields, setupSchema])
  have hextended := optional_iff buildExtended_iff hsetup "ext_handshake"
    (by simp [fields, setupSchema])
  rw [hparts, buildSerial_iff hserial, hhandshake, hextended]
  simp only [← hseconds, ← part?_setup hss]
  constructor
  · rintro ⟨hfits, hhandshake, hextended⟩
    refine ⟨hfits, ?_⟩
    simp only [List.forall_mem_cons] at hhandshake hextended ⊢
    exact ⟨hhandshake.1, hhandshake.2.1, hextended.1, by simp⟩
  · rintro ⟨hfits, hstrings⟩
    simp only [List.forall_mem_cons] at hstrings ⊢
    exact ⟨by simpa using hfits, ⟨hstrings.1, hstrings.2.1, by simp⟩, hstrings.2.2.1, by simp⟩

inductive Announced (source : String) : Except Failure Profile → Prop
  | built (p : Profile) : Announced source (.ok p)
  | invalid (violation : Violation) :
    Announced source (.error (.document ⟨.profile, source, .invalid violation⟩))

theorem not_announced_fault {source : String} {f : Fault} : ¬ Announced source (.error (.fault f)) :=
  nofun

theorem schema_tellable : Rule.tellableRules true schema = true := by
  decide +kernel

theorem build_of_accepts {source : String} {doc : Value} (h : firstBreach? schema doc = none) :
    build source doc = (ofDocument (entriesOf doc)).mapError .fault := by
  rw [build, check, h]
  rfl

theorem build_of_breach {source : String} {doc : Value} {violation : Violation}
    (h : firstBreach? schema doc = some (.ok violation)) :
    build source doc = .error (.document ⟨.profile, source, .invalid violation⟩) := by
  rw [build, check, h]
  rfl

theorem build_of_untold {source : String} {doc : Value} {f : Fault}
    (h : firstBreach? schema doc = some (.error f)) : build source doc = .error (.fault f) := by
  rw [build, check, h]
  rfl

/-- Building ends as announced but for a document that the schema accepts with a number that has no
form for the profile, and for one whose first broken rule cannot be told. That is because of a limit, and
there is none where all parts of the document can be shown and the items of its lists be compared. -/
theorem build_announced_iff (source : String) (doc : Value) :
    (Announced source (build source doc) ↔
      (accepts schema doc = true → Convertible doc) ∧
        ∀ f, firstBreach? schema doc ≠ some (.error f)) ∧
    (∀ f, firstBreach? schema doc = some (.error f) →
      f.IsLimit ∧ build source doc = .error (.fault f)) ∧
    (doc.Tellable true → ∀ f, firstBreach? schema doc ≠ some (.error f)) := by
  refine ⟨?_, fun f hbreach => ⟨breach?_isLimit hbreach, build_of_untold hbreach⟩,
    fun hdoc f hbreach => ?_⟩
  · cases hbreach : firstBreach? schema doc with
    | none =>
      have haccepts : accepts schema doc = true := by simp [accepts, hbreach]
      have hbuilds : Announced source (build source doc) ↔
          ∃ p, ofDocument (entriesOf doc) = .ok p := by
        rw [build_of_accepts hbreach]
        cases ofDocument (entriesOf doc) with
        | ok p => exact iff_of_true (.built p) ⟨p, rfl⟩
        | error f => exact iff_of_false not_announced_fault (by simp)
      rw [hbuilds, ofDocument_iff haccepts]
      simp [haccepts]
    | some b =>
      have hrejects : ¬ accepts schema doc = true := by simp [accepts, hbreach]
      rcases b with f | violation
      · rw [build_of_untold hbreach]
        exact iff_of_false not_announced_fault fun h => h.2 f rfl
      · rw [build_of_breach hbreach]
        exact iff_of_true (.invalid violation) ⟨fun h => absurd h hrejects, by simp⟩
  · obtain ⟨violation, hok⟩ := (firstBreach?_toldIf schema_tellable hbreach).exists_ok hdoc
    cases hok

/-- A profile with a byte string of the double 17, which the schema takes for an integer. -/
def doubleTrigger : Value :=
  .map [(.str "id", .str "a"), (.str "name", .str "A"), (.str "serial", .map []),
    (.str "setup", .map [(.str "ext_handshake", .map [(.str "xoff_trigger_chars",
      .list [.double (Double.ofRatio false 17 1)])])])]

theorem build_unannounced_double : ¬ Announced "a.yaml" (build "a.yaml" doubleTrigger) := by
  have hfault : error? (build "a.yaml" doubleTrigger) = some (.fault (.notAnIndex "float")) := by
    decide +kernel
  rw [error?_eq_some hfault]
  exact not_announced_fault

end Profile

end PenPlotter
