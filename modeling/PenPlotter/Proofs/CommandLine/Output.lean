import PenPlotter.Proofs.CommandLine.Agreement
import PenPlotter.Proofs.World.Writing
import PenPlotter.Text.Hex
/-! # All of a job's output or none

Writing a job has its first effect behind all that can fail before the bytes are known. So where the job is
not rendered no file is touched and nothing is printed, and where it is rendered all its bytes are written,
as they are or as a line of digits that reads back as them.
-/
namespace PenPlotter.Text.Hex

/-! ## Hexadecimal digits read back -/

theorem digit?_hexDigit {n : Nat} (h : n < 16) : digit? (hexDigit n) = some n := by
  have hall : ∀ n ∈ List.range 16, digit? (hexDigit n) = some n := by decide
  exact hall n (List.mem_range.mpr h)

theorem hexDigit_mem {n : Nat} (h : n < 16) : hexDigit n ∈ "0123456789abcdef".toList := by
  have hall : ∀ n ∈ List.range 16, hexDigit n ∈ "0123456789abcdef".toList := by decide
  exact hall n (List.mem_range.mpr h)

theorem high_lt (b : UInt8) : b.toNat / 16 < 16 := by
  have hb : b.toNat < 256 := b.toNat_lt
  omega

theorem low_lt (b : UInt8) : b.toNat % 16 < 16 := Nat.mod_lt _ (by decide)

theorem decode?_encode (bytes : Bytes) : decode? (encode bytes) = some bytes := by
  induction bytes with
  | nil => rfl
  | cons b bytes ih =>
    have hcons : encode (b :: bytes) =
        hexDigit (b.toNat / 16) :: hexDigit (b.toNat % 16) :: encode bytes := rfl
    have hbyte : b.toNat / 16 * 16 + b.toNat % 16 = b.toNat := by omega
    rw [hcons, decode?, digit?_hexDigit (high_lt b), digit?_hexDigit (low_lt b), ih]
    dsimp only
    rw [hbyte, UInt8.ofNat_toNat]

theorem mem_encode {bytes : Bytes} {c : Char} (h : c ∈ encode bytes) :
    c ∈ "0123456789abcdef".toList := by
  obtain ⟨b, -, hc⟩ := List.mem_flatMap.mp h
  rw [List.mem_cons, List.mem_singleton] at hc
  rcases hc with rfl | rfl
  · exact hexDigit_mem (high_lt b)
  · exact hexDigit_mem (low_lt b)

end PenPlotter.Text.Hex

namespace PenPlotter.CommandLine
open Text

/-- How the bytes of a job are written: as they are, or as one line of lower-case hexadecimal digits that
reads back as them. -/
inductive Written (data : Bytes) : Bool → Bytes → Prop
  | bytes : Written data false data
  | line {digits : List Char} (hdigits : ∀ c ∈ digits, c ∈ "0123456789abcdef".toList)
      (hback : Hex.decode? digits = some data) :
      Written data true (Utf8.encode (digits ++ ['\n']))

theorem shown_written (hex : Bool) (data : Bytes) : Written data hex (shown hex data) := by
  cases hex with
  | false => exact .bytes
  | true => exact .line (fun _ hc => Hex.mem_encode hc) (Hex.decode?_encode data)

def rendered (loaded : Loaded) (world : World) (job : JobChoice) : Except Failure Bytes := do
  let c ← loaded.2
  c.renderFile world job.path job.profile job.setup

theorem rendered_eq {loaded : Loaded} {c : Catalog} (hc : loaded.2 = .ok c) (world : World)
    (job : JobChoice) :
    rendered loaded world job = c.renderFile world job.path job.profile job.setup := by
  rw [rendered, hc]
  rfl

/-- A job that is not rendered leaves all files as they were and nothing on the standard output. The bytes
of one that is rendered are written whole: to the standard output if no file is named, and otherwise to the
file alone, if its name can be written to. -/
theorem encode_allOrNothing {arguments : List String} {job : JobChoice} {output : Option PathName}
    {hex : Bool} (hrequest : Request.ofArguments? arguments = some (.encode job output hex))
    (loaded : Loaded) (transport : Transport) (world : World) :
    let o := outcome loaded transport arguments world
    (∀ e, rendered loaded world job = .error e →
      o.code = 1 ∧ o.desk.world = world ∧ o.desk.out = []) ∧
    ∀ data, rendered loaded world job = .ok data → ∃ written, Written data hex written ∧
      (output = none → o.desk.world = world ∧ o.desk.out = written) ∧
      ∀ p, output = some p → o.desk.out = [] ∧
        (∀ here, world.Takes p here →
          o.desk.world = world.set here (.file written) ∧ o.desk.world.read p = .ok written) ∧
        ((∀ here, ¬ world.Takes p here) → o.desk.world = world) := by
  intro o
  have ho : o = Outcome.of (encode loaded job output hex) { world } :=
    outcome_of_request hrequest loaded transport
  have hgoes := encode_goes loaded job output hex { world }
  rw [ho]
  generalize hrun : (encode loaded job output hex).on { world } = run at hgoes
  cases hgoes with
  | @unloaded _ e h =>
    have hrendered : rendered loaded world job = .error e := by
      rw [rendered, h]
      rfl
    rw [Outcome.of_error hrun, hrendered]
    exact ⟨fun e he => Outcome.failed_desk _ _, nofun⟩
  | unrendered hc h =>
    rw [Outcome.of_error hrun, (rendered_eq hc world job).trans h]
    exact ⟨fun e he => Outcome.failed_desk _ _, nofun⟩
  | @printed c data hc h =>
    rw [Outcome.of_ok hrun, (rendered_eq hc world job).trans h]
    refine ⟨nofun, fun data' hdata => ?_⟩
    cases hdata
    exact ⟨_, shown_written hex data, fun _ => ⟨rfl, rfl⟩, nofun⟩
  | @unsaved c data p problem hc h hw =>
    rw [Outcome.of_error hrun, (rendered_eq hc world job).trans h]
    refine ⟨nofun, fun data' hdata => ?_⟩
    cases hdata
    obtain ⟨-, hworld, hout⟩ := Outcome.failed_desk (.file ⟨problem, p.text⟩)
      { world, err := [] ++ loaded.told }
    refine ⟨_, shown_written hex data, nofun, fun p' hp => ?_⟩
    cases hp
    refine ⟨hout, fun here htakes => ?_, fun _ => hworld⟩
    cases hw.symm.trans (World.write_eq_ok.mpr ⟨here, htakes, rfl⟩)
  | @saved c data p world' hc h hw more =>
    rw [Outcome.of_ok hrun, (rendered_eq hc world job).trans h]
    refine ⟨nofun, fun data' hdata => ?_⟩
    cases hdata
    refine ⟨_, shown_written hex data, nofun, fun p' hp => ?_⟩
    cases hp
    refine ⟨rfl, fun here htakes => ?_, fun hnone => ?_⟩
    · cases hw.symm.trans (World.write_eq_ok.mpr ⟨here, htakes, rfl⟩)
      exact ⟨rfl, htakes.read_set _⟩
    · obtain ⟨here, htakes, -⟩ := World.write_eq_ok.mp hw
      exact absurd htakes (hnone here)

/-- A job is written as digits to a file that is not there yet. -/
theorem encode_allOrNothing_hex :
    let job : JobChoice := ⟨.ofText "pen.yaml", some "tiny", true⟩
    let p : PathName := ⟨"", ["out.hex"]⟩
    let loaded := Catalog.load [Catalog.tinyFile] penWorld
    let arguments := ["encode", "pen.yaml", "--profile", "tiny", "--hex", "-o", "out.hex"]
    let o := outcome loaded (.serial {}) arguments penWorld
    Request.ofArguments? arguments = some (.encode job (some p) true) ∧
      penWorld.Takes p ["out.hex"] ∧
      ∃ data written, rendered loaded penWorld job = .ok data ∧ Written data true written ∧
        o.desk.out = [] ∧ o.desk.world.read p = .ok written := by
  intro job p loaded arguments o
  have hrequest : Request.ofArguments? arguments = some (.encode job (some p) true) := by
    decide +kernel
  have htakes : penWorld.Takes p ["out.hex"] :=
    @World.Takes.intro penWorld p [] [] "out.hex" rfl rfl rfl (by decide) (by decide) nofun
  have hrendered : (rendered loaded penWorld job).toOption.isSome = true := by decide +kernel
  obtain ⟨data, hdata⟩ := Option.isSome_iff_exists.mp hrendered
  have hdata := toOption_eq_some hdata
  obtain ⟨-, hall⟩ := encode_allOrNothing hrequest loaded (.serial {}) penWorld
  obtain ⟨written, hwritten, -, hfile⟩ := hall data hdata
  obtain ⟨hout, hread, -⟩ := hfile p rfl
  exact ⟨hrequest, htakes, data, written, hdata, hwritten, hout, (hread _ htakes).2⟩

end PenPlotter.CommandLine
