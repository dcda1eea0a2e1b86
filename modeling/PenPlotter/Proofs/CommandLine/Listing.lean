import PenPlotter.Proofs.CommandLine.Actions
import PenPlotter.Proofs.Job.Built
import PenPlotter.Proofs.Profile.Form
import PenPlotter.Proofs.Profile.Settings
import PenPlotter.Proofs.Text.Order
/-! # Listing the profiles

A profile is listed with its name and the settings of its line. Of these only the name and the speed can be
such that they are not printed: a name may have code points that the output cannot write, and no bound
keeps a speed from having too many digits. All the other settings are among a few.
-/
namespace PenPlotter
open Text

/-! ## The settings in print -/

theorem Text.IsAscii.of_plain {s : List Char} (h : Numeral.Plain s) : IsAscii s :=
  fun c hc => Numeral.isMark_ascii (h.2 c hc)

namespace Decimal
open Text

theorem natText_ascii (n : ℕ) : IsAscii (natText n) := .of_plain (plain_natText n)

theorem scientific_ascii (d : Decimal) : IsAscii d.scientific := by
  have hdigits := natText_ascii d.digits
  have hfraction : IsAscii (if (natText d.digits).length ≤ 1 then []
      else '.' :: (natText d.digits).drop 1) := by
    split
    · exact nofun
    · exact .cons (by decide) (hdigits.of_subset (List.drop_subset _ _))
  have hpower (n : ℕ) : IsAscii (if (natText n).length < 2 then '0' :: natText n else natText n) := by
    split
    · exact .cons (by decide) (natText_ascii n)
    · exact natText_ascii n
  refine ((hdigits.of_subset (List.take_subset _ _)).append hfraction).append ?_
  refine .cons (by decide) (.cons ?_ (hpower _))
  split <;> decide

theorem general_ascii (d : Decimal) : IsAscii d.general := by
  have hpositional : IsAscii d.positional := .of_plain (plain_positional d)
  unfold general
  dsimp only
  split
  · exact d.scientific_ascii
  · split
    · exact hpositional.append (by decide)
    · exact hpositional

end Decimal

namespace Value

def HasAscii (v : Value) : Prop := ∃ s, v.text = .ok s ∧ IsAscii s

theorem text_codes {s : List Char} {v : Value} (h : v.textCodes = .ok (Text.codes s)) :
    v.text = .ok s := by
  unfold text
  rw [h]
  exact congrArg Except.ok (escapeHalves_codes s)

theorem hasAscii_int {i : ℤ} (hi : Decimal.writable i = true) : (int i).HasAscii :=
  ⟨Decimal.intText i, text_int hi, .of_plain (Decimal.plain_intText i)⟩

theorem HasAscii.writable {v : Value} (h : v.HasAscii) : v.writable = true := by
  obtain ⟨s, hs, -⟩ := h
  exact (showable_iff.mp (v.text_shownIf.showable_of_ok hs)).1

theorem hasAscii_double (x : Double) : (double x).HasAscii := by
  refine ⟨x.general, text_codes rfl, ?_⟩
  have hsign (b : Bool) : IsAscii (Double.signText b) := by cases b <;> decide
  cases x with
  | finite s m e h =>
    refine (hsign s).append ?_
    split
    · decide
    · exact Decimal.general_ascii _
  | infinite s => exact (hsign s).append (by decide)
  | nan p => exact (by decide : IsAscii ['n', 'a', 'n'])

theorem hasAscii_str {s : String} (hs : IsAscii s.toList) : (str s).HasAscii :=
  ⟨s.toList, text_codes rfl, hs⟩

theorem IsRational.hasAscii {v : Value} {q : ℚ} (h : v.IsRational q) (hq : |q| < 10) :
    v.HasAscii := by
  cases v with
  | int i =>
    obtain rfl : (i : ℚ) = q := h
    have hi : |i| < 10 := by exact_mod_cast hq
    rw [Int.abs_eq_natAbs] at hi
    exact hasAscii_int (Decimal.writable_of_lt (k := 1) (by decide) (show i.natAbs < 10 ^ 1 by omega))
  | double x => exact hasAscii_double x
  | _ => exact h.elim

end Value

namespace Profile
open Schema
variable {es : List (Value × Value)} {v absent : Value}

theorem IsAmong.hasAscii {qs : List ℚ} (h : IsAmong qs v) (hqs : ∀ q ∈ qs, |q| < 10) :
    v.HasAscii := by
  obtain ⟨q, hq, hv⟩ := h
  exact hv.hasAscii (hqs q hq)

theorem IsOneOf.hasAscii {names : List String} (h : IsOneOf names v)
    (hnames : ∀ s ∈ names, IsAscii s.toList) : v.HasAscii := by
  cases h with
  | name hs => exact Value.hasAscii_str (hnames _ hs)

theorem field_hasAscii {name : String} (habsent : absent.HasAscii)
    (h : ∀ x, Value.field? name es = some x → x.HasAscii) :
    (field (Value.entries es) name absent).HasAscii := by
  rw [field_entries]
  cases hx : Value.field? name es with
  | none => exact habsent
  | some x => exact h x hx

/-- All settings in print but the speed have a text, and the speed is an integer. -/
structure Plain (s : Settings) : Prop where
  baudrate : ∃ i, s.baudrate = .int i
  bytesize : s.bytesize.HasAscii
  parity : s.parity.HasAscii
  stopbits : s.stopbits.HasAscii
  flowControl : s.flowControl.HasAscii

theorem plain_of_build {source : String} {doc : Value} {p : Profile}
    (h : build source doc = .ok p) : Plain p.serial := by
  obtain ⟨ps, haccepts, hserial, -⟩ := serial_of_build h
  obtain ⟨-, -, hparts⟩ := serial_iff.mp haccepts
  simp only [List.forall_mem_cons] at hparts
  obtain ⟨-, hbytesize, hparity, hstopbits, hflow, -⟩ := hparts
  obtain ⟨b, -, y, hy, t, -, w, -, hsettings⟩ := buildSerial_eq_ok.mp hserial
  have hone {i : ℤ} (hi : i.natAbs < 10 ^ 1) : (Value.int i).HasAscii :=
    Value.hasAscii_int (Decimal.writable_of_lt (by decide) hi)
  have hbits : (field (Value.entries ps) "bytesize" (.int 8)).HasAscii :=
    field_hasAscii (hone (by decide)) fun x hx => (hbytesize x hx).hasAscii (by norm_num)
  rw [hsettings]
  exact {
    baudrate := ⟨b, rfl⟩
    bytesize := Value.hasAscii_int (Job.toInt_writable hbits.writable hy)
    parity := field_hasAscii (Value.hasAscii_str (by decide)) fun x hx =>
      (hparity x hx).hasAscii (by decide)
    stopbits := field_hasAscii (hone (by decide)) fun x hx =>
      (hstopbits x hx).hasAscii (by norm_num [abs_of_pos])
    flowControl := field_hasAscii (Value.hasAscii_str (by decide)) fun x hx =>
      (hflow x hx).hasAscii (by decide) }

end Profile

namespace CommandLine
variable {d : Desk}

/-! ## The list -/

/-- The settings are a line of ASCII text, unless the speed has too many digits. -/
theorem settingsLine_ok {s : Settings} (hs : Profile.Plain s) (h : s.baudrate.writable = true) :
    ∃ line, settingsLine s = .ok line ∧ IsAscii line.toList := by
  obtain ⟨i, hi⟩ := hs.baudrate
  rw [hi] at h
  obtain ⟨baudrate, hbaudrate, hbaudrateAscii⟩ := hi ▸ Value.hasAscii_int h
  obtain ⟨bytesize, hbytesize, hbytesizeAscii⟩ := hs.bytesize
  obtain ⟨parity, hparity, hparityAscii⟩ := hs.parity
  obtain ⟨stopbits, hstopbits, hstopbitsAscii⟩ := hs.stopbits
  obtain ⟨flow, hflow, hflowAscii⟩ := hs.flowControl
  unfold settingsLine
  rw [hbaudrate, hbytesize, hparity, hstopbits, hflow]
  refine ⟨_, rfl, ?_⟩
  simp only [toString, String.toList_append, String.toList_ofList, IsAscii.append_iff]
  exact ⟨⟨⟨⟨⟨⟨by decide, hbaudrateAscii⟩, by decide⟩, hbytesizeAscii⟩, by decide⟩,
    ⟨⟨⟨by decide, hparityAscii⟩, by decide⟩, hstopbitsAscii⟩, by decide⟩, by decide, hflowAscii⟩

theorem settingsLine_error {s : Settings} (h : ¬ s.baudrate.writable = true) :
    ∃ f, settingsLine s = .error f := by
  unfold settingsLine
  cases hb : s.baudrate.text with
  | error f => exact ⟨f, rfl⟩
  | ok text =>
    exact absurd (Value.showable_iff.mp (s.baudrate.text_shownIf.showable_of_ok hb)).1 h

theorem settingsLine_prints {s : Settings} (hs : Profile.Plain s) (d : Desk) :
    Prints (s.baudrate.writable = true) d
      (Action.on (do print (← ExceptT.mk (pure ((settingsLine s).mapError .fault)))) d) := by
  by_cases h : s.baudrate.writable = true
  · obtain ⟨line, hline, hascii⟩ := settingsLine_ok hs h
    rw [Action.on_mk_bind_ok (congrArg (Except.mapError Failure.fault) hline)]
    exact (print_prints line d).congr (iff_of_true (d.output.takes_of_isAscii hascii) h)
  · obtain ⟨f, hf⟩ := settingsLine_error h
    rw [Action.on_mk_bind_error (congrArg (Except.mapError Failure.fault) hf)]
    exact .stopped_quietly h f

/-- A profile that an output can take, with a speed that has a text. -/
structure Listable (o : Output) (p : Profile) : Prop where
  id : o.TakesAll p.id
  name : ∀ x ∈ p.name, o.Takes x
  baudrate : p.serial.baudrate.writable = true

theorem printProfile_prints {p : Profile} (hp : Profile.Plain p.serial) (d : Desk) :
    Prints (Listable d.output p) d ((printProfile p).on d) := by
  have hchain : Prints ((∀ x ∈ codes s!"{p.id}: ".toList ++ p.name, d.output.Takes x) ∧
      p.serial.baudrate.writable = true) d ((printProfile p).on d) :=
    (printCodes_prints _ d).bind fun _ _ => settingsLine_prints hp _
  have hid : (∀ x ∈ codes s!"{p.id}: ".toList, d.output.Takes x) ↔ d.output.TakesAll p.id := by
    simp only [toString, String.toList_append, codes, List.map_append, List.forall_mem_append,
      List.forall_mem_map]
    exact and_iff_left (d.output.takes_of_isAscii (by decide))
  refine hchain.congr ⟨?_, fun h => ⟨?_, h.baudrate⟩⟩
  · rintro ⟨hline, hbaudrate⟩
    rw [List.forall_mem_append, hid] at hline
    exact ⟨hline.1, hline.2, hbaudrate⟩
  · rw [List.forall_mem_append, hid]
    exact ⟨h.id, h.name⟩

theorem printProfiles_prints {ps : List Profile} (hps : ∀ p ∈ ps, Profile.Plain p.serial) (d : Desk) :
    Prints (∀ p ∈ ps, Listable d.output p) d (Action.on (ps.forM printProfile) d) := by
  induction ps generalizing d with
  | nil => exact .done_quietly nofun ()
  | cons p ps ih =>
    obtain ⟨hp, hps⟩ := List.forall_mem_cons.mp hps
    have hcons : (p :: ps).forM printProfile = printProfile p >>= fun _ => ps.forM printProfile := rfl
    rw [hcons]
    exact ((printProfile_prints hp d).bind fun _ lines => ih hps { d with out := d.out ++ lines }).congr
      List.forall_mem_cons.symm

inductive Lists (loaded : Loaded) (d : Desk) : Except Failure Nat × Desk → Prop
  | unloaded {e : Failure} (h : loaded.2 = .error e) :
      Lists loaded d (.error e, { d with err := d.err ++ loaded.told })
  | empty (h : loaded.2 = .ok []) :
      Lists loaded d (.ok 1, { d with
        err := d.err ++ loaded.told, out := d.out ++ Utf8.encode "No profiles loaded\n".toList })
  | listed {c : Catalog} (hc : loaded.2 = .ok c) (h : ∀ p ∈ c, Listable d.output p) (lines : Bytes) :
      Lists loaded d (.ok 0, { d with err := d.err ++ loaded.told, out := d.out ++ lines })
  | stopped {c : Catalog} (hc : loaded.2 = .ok c) (h : ¬ ∀ p ∈ c, Listable d.output p) (f : Fault)
      (lines : Bytes) :
      Lists loaded d (.error (.fault f), { d with err := d.err ++ loaded.told, out := d.out ++ lines })

theorem profiles_lists (loaded : Loaded)
    (hloaded : ∀ c, loaded.2 = .ok c → ∀ p ∈ c, Profile.Plain p.serial) (d : Desk) :
    Lists loaded d ((profiles loaded).on d) := by
  unfold profiles
  cases hc : loaded.2 with
  | error e =>
    rw [catalog_error hc]
    exact .unloaded hc
  | ok c =>
    rw [catalog_ok hc]
    have hmem (p : Profile) : p ∈ c.sorted ↔ p ∈ c := mem_sortBy
    have hprints := printProfiles_prints (fun p hp => hloaded c hc p ((hmem p).mp hp))
      { d with err := d.err ++ loaded.told }
    simp only [hmem] at hprints
    generalize c.sorted = ps at hmem hprints
    split
    next =>
      have hempty : c = [] := List.eq_nil_iff_forall_not_mem.mpr fun p hp => by simpa using (hmem p).mpr hp
      subst hempty
      have hprint := print_ascii (s := "No profiles loaded") (by decide) (by decide)
        { d with err := d.err ++ loaded.told }
      rw [Action.on_bind_ok hprint]
      exact .empty hc
    next =>
      generalize hrun : Action.on _ _ = run at hprints
      cases hprints with
      | done h u lines =>
        rw [Action.on_bind_ok hrun]
        exact .listed hc h lines
      | stopped h f lines =>
        rw [Action.on_bind_error hrun]
        exact .stopped hc h f lines

end CommandLine

end PenPlotter
