import PenPlotter.Proofs.Profile.Declared
import PenPlotter.Proofs.Profile.Loaded
import PenPlotter.Proofs.Serial.Supported
/-! # The settings of built profiles

The schema asks for the parities, stop bits and flow controls that a line knows. So a line supports the
settings of every profile that was built, and its options come out of them.
-/
namespace PenPlotter

namespace Value

theorem hashable_of_equal_int {v : Value} {i : ℤ} (h : v.equal (.int i) = true) :
    v.hashable = true ∧ v.same (.int i) = true := by
  cases v with
  | bool b => simp [equal] at h
  | int j | double x => exact ⟨rfl, by simpa [equal] using h⟩
  | _ => simp [equal, same] at h

theorem hashable_of_equal_double {v : Value} {x : Double} (h : v.equal (.double x) = true) :
    v.hashable = true ∧ v.same (.double x) = true := by
  cases v with
  | bool b => simp [equal] at h
  | int j | double y => exact ⟨rfl, by simpa [equal] using h⟩
  | _ => simp [equal, same] at h

end Value

theorem Settings.any_byName {α : Type} (choices : List (String × α)) {name : String}
    (h : name ∈ choices.map (·.1)) :
    ((byName choices).map (·.1)).any (Value.str name).same = true := by
  obtain ⟨c, hc, rfl⟩ := List.mem_map.mp h
  refine List.any_eq_true.mpr ⟨.str c.1, ?_, by simp [Value.same]⟩
  rw [byName, List.map_map]
  exact List.mem_map_of_mem hc

namespace Profile
open Schema
variable {es : List (Value × Value)}

/-- A value that is there or not is one of the names that the schema lists. -/
theorem named_of_accepts {s : Schema} (h : accepts s (.map es) = true) (name absent : String)
    (ns : List String) (hs : (name, [names ns]) ∈ s.fields) (habsent : absent ∈ ns) :
    ∃ n ∈ ns, field (Value.entries es) name (.str absent) = .str n := by
  rw [field_entries]
  cases hx : Value.field? name es with
  | none => exact ⟨absent, habsent, rfl⟩
  | some x =>
    obtain ⟨c, hc, hequal⟩ := Rule.kept_enum.mp (accepts_cons.mp (accepts_field h hs hx)).1
    obtain ⟨n, hn, rfl⟩ := List.mem_map.mp hc
    exact ⟨n, hn, Value.eq_str_of_equal hequal⟩

theorem stopbits_of_accepts (h : accepts serialSchema (.map es) = true) :
    (field (Value.entries es) "stopbits" (.int 1)).hashable = true ∧
      ([StopBits.one, .onePointFive, .two].map StopBits.value).any
        (field (Value.entries es) "stopbits" (.int 1)).same = true := by
  rw [field_entries]
  cases hx : Value.field? "stopbits" es with
  | none => exact ⟨rfl, by simp [StopBits.value, Value.same]⟩
  | some x =>
    have hacc : accepts [.enum [.int 1, .double (Double.ofRatio false 3 2), .int 2]] x = true :=
      accepts_field h (by simp [fields, serialSchema]) hx
    obtain ⟨c, hc, hequal⟩ := Rule.kept_enum.mp (accepts_cons.mp hacc).1
    have hsame : x.hashable = true ∧ x.same c = true := by
      simp only [List.mem_cons, List.not_mem_nil, or_false] at hc
      rcases hc with rfl | rfl | rfl
      · exact Value.hashable_of_equal_int hequal
      · exact Value.hashable_of_equal_double hequal
      · exact Value.hashable_of_equal_int hequal
    exact ⟨hsame.1, List.any_eq_true.mpr ⟨c, hc, hsame.2⟩⟩

/-- The settings of a built profile are built from a part that its schema accepts. -/
theorem serial_of_build {source : String} {doc : Value} {p : Profile}
    (h : build source doc = .ok p) :
    ∃ ps, accepts serialSchema (.map ps) = true ∧ buildSerial (Value.entries ps) = .ok p.serial ∧
      ∀ name, part? doc ["serial", name] = Value.field? name ps := by
  obtain ⟨hdoc, hp⟩ := build_eq_ok.mp h
  obtain ⟨es, rfl⟩ := object_of_accepts hdoc
  obtain ⟨-, -, hserial, -⟩ := ofDocument_eq_ok.mp hp
  obtain ⟨x, hx⟩ : ∃ x, Value.field? "serial" es = some x :=
    accepts_needed hdoc (by simp [needed, schema])
  have haccepts : accepts serialSchema x = true := accepts_field hdoc (by simp [fields, schema]) hx
  obtain ⟨ps, rfl⟩ := object_of_accepts haccepts
  rw [entriesOf, field_entries, hx, Option.getD_some, entriesOf] at hserial
  refine ⟨ps, haccepts, hserial, fun name => ?_⟩
  rw [part?_cons, hx, Option.bind_some, part?_singleton]

/-- A line supports the settings of a built profile. -/
theorem options_of_build {source : String} {doc : Value} {p : Profile}
    (h : build source doc = .ok p) : ∃ o, p.serial.options = .ok o := by
  obtain ⟨ps, haccepts, hserial, -⟩ := serial_of_build h
  obtain ⟨b, -, y, -, t, -, w, -, hsettings⟩ := buildSerial_eq_ok.mp hserial
  obtain ⟨parity, hparity, hparityEq⟩ := named_of_accepts haccepts "parity" "none"
    ["none", "odd", "even", "mark", "space"] (by simp [fields, serialSchema]) (by decide)
  obtain ⟨flow, hflow, hflowEq⟩ := named_of_accepts haccepts "flow_control" "software"
    ["none", "software", "hardware"] (by simp [fields, serialSchema]) (by decide)
  obtain ⟨hstopHashable, hstopKnown⟩ := stopbits_of_accepts haccepts
  rw [hparityEq, hflowEq] at hsettings
  have hhashable : p.serial.Hashable := by
    rw [hsettings]
    exact ⟨rfl, hstopHashable, rfl⟩
  have hparityKnown := Settings.any_byName Parity.named hparity
  have hflowKnown := Settings.any_byName FlowControl.named hflow
  have hknown : Settings.firstUnknown p.serial.lookups = none := by
    rw [hsettings, Settings.lookups, Settings.firstUnknown_known hparityKnown,
      Settings.firstUnknown_known (by simpa using hstopKnown),
      Settings.firstUnknown_known hflowKnown]
    rfl
  have houtcome := Settings.options_outcome hhashable
  generalize p.serial.options = options at houtcome ⊢
  cases houtcome with
  | ok o => exact ⟨o, rfl⟩
  | refused hv => simp [hknown] at hv
  | untold hv => simp [hknown] at hv

end Profile

end PenPlotter
