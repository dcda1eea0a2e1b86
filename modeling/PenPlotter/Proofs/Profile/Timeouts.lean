import PenPlotter.Proofs.Number.Underflow
import PenPlotter.Proofs.Profile.Form
import PenPlotter.Proofs.Profile.Settings
/-! # The timeouts of built profiles

The schema asks for seconds above zero, and a nan, which compares to no number, passes. So the timeouts
of a built profile are above zero unless the document gives a nan for one of them.
-/
namespace PenPlotter

namespace Double

theorem isPositive_ofRatio_nat {n : ℕ} (hn : 0 < n) : (ofRatio false n 1).IsPositive := by
  have hone : (1 : ℚ) ≤ n := by exact_mod_cast hn
  refine (isPositive_ofRatio Nat.one_pos).mpr ?_
  rw [Nat.cast_one, div_one]
  exact (zpow_lt_one_of_neg₀ one_lt_two (by norm_num)).trans_le hone

theorem isPositive_ofInt? {i : ℤ} (hi : 0 < i) {x : Double} (h : ofInt? i = some x) :
    x.IsPositive := by
  have hpos := isPositive_ofRatio_nat (n := i.natAbs) (by omega)
  unfold ofInt? at h
  rw [decide_eq_false (by omega : ¬i < 0)] at h
  split at h
  · cases h
  · cases h
    exact hpos

end Double

namespace Value

/-- The double of a number of seconds is above zero, unless the number is a nan. -/
theorem IsSeconds.toDouble {v : Value} (h : v.IsSeconds) {x : Double} (hx : v.toDouble = .ok x) :
    x.IsPositive ∨ ∃ n, v = .double (.nan n) ∧ x = .nan n := by
  cases h with
  | @rational v q hq hv =>
    refine .inl ?_
    cases v with
    | int i =>
      have hi : 0 < i := by
        rw [← hv] at hq
        exact_mod_cast hq
      rw [Value.toDouble] at hx
      split at hx
      next y hy =>
        cases hx
        exact Double.isPositive_ofInt? hi hy
      next => cases hx
    | double y =>
      obtain ⟨hfinite, hexact⟩ := hv
      obtain rfl : y = x := Except.ok.inj hx
      cases y with
      | finite s m e hc => exact .finite (hexact ▸ hq)
      | infinite s => cases hfinite
      | nan p => cases hfinite
    | _ => exact hv.elim
  | infinite =>
    cases hx
    exact .inl .infinite
  | nan n =>
    cases hx
    exact .inr ⟨n, rfl, rfl⟩

end Value

/-- Timeouts for a port: a reading one above zero, and a writing one that is not set or above zero. -/
structure Settings.Timed (s : Settings) : Prop where
  reading : ∃ x, s.timeout = .double x ∧ x.IsPositive
  writing : s.writeTimeout = .null ∨ ∃ x, s.writeTimeout = .double x ∧ x.IsPositive

namespace Profile
open Schema

inductive Timeout (given : Option Value) : Value → Prop
  | unset (h : given = none ∨ given = some .null) : Timeout given .null
  | positive {x : Double} (hx : x.IsPositive) (h : ∀ n, given ≠ some (.double (.nan n))) :
      Timeout given (.double x)
  | nan {n : ℕ} (h : given = some (.double (.nan n))) : Timeout given (.double (.nan n))

variable {given : Option Value} {v : Value}

theorem Timeout.fits_iff (h : Timeout given v) :
    (v = .null ∨ ∃ x, v = .double x ∧ x.IsPositive) ↔ ∀ n, given ≠ some (.double (.nan n)) := by
  cases h with
  | unset h =>
    refine iff_of_true (.inl rfl) fun n hn => ?_
    rcases h with h | h
    · cases h.symm.trans hn
    · cases h.symm.trans hn
  | positive hx h => exact iff_of_true (.inr ⟨_, rfl, hx⟩) h
  | @nan n h =>
    refine iff_of_false ?_ fun hall => hall n h
    rintro (hnull | ⟨x, hx, hpos⟩)
    · cases hnull
    · cases hx
      exact Double.not_isPositive_nan n hpos

theorem timeout_of_seconds {x : Double} (h : v.IsSeconds) (hx : v.toDouble = .ok x) :
    Timeout (some v) (.double x) := by
  rcases h.toDouble hx with hpos | ⟨n, rfl, rfl⟩
  · refine .positive hpos fun n hn => ?_
    cases hn
    cases hx
    exact Double.not_isPositive_nan n hpos
  · exact .nan rfl

variable {ps : List (Value × Value)} {x : Double} {w : Value}

/-- The reading timeout. A second, where the document gives none. -/
theorem timeout_of_field (h : ∀ v, Value.field? "timeout_s" ps = some v → v.IsSeconds)
    (hx : (field (Value.entries ps) "timeout_s" (.double (Double.ofRatio false 1 1))).toDouble =
      .ok x) : Timeout (Value.field? "timeout_s" ps) (.double x) := by
  rw [field_entries] at hx
  cases hv : Value.field? "timeout_s" ps with
  | none =>
    rw [hv] at hx
    cases hx
    exact .positive (Double.isPositive_ofRatio_nat Nat.one_pos) nofun
  | some v =>
    rw [hv, Option.getD_some] at hx
    exact timeout_of_seconds (h v hv) hx

/-- The writing timeout. -/
theorem writeTimeout_of_field
    (h : ∀ v, Value.field? "write_timeout_s" ps = some v → v = .null ∨ v.IsSeconds)
    (hw : secondsOrNone (field (Value.entries ps) "write_timeout_s" .null) = .ok w) :
    Timeout (Value.field? "write_timeout_s" ps) w := by
  rw [field_entries] at hw
  cases hv : Value.field? "write_timeout_s" ps with
  | none =>
    rw [hv] at hw
    cases hw
    exact .unset (.inl rfl)
  | some v =>
    rw [hv, Option.getD_some] at hw
    rcases h v hv with rfl | hseconds
    · cases hw
      exact .unset (.inr rfl)
    · unfold secondsOrNone at hw
      split at hw
      · cases hw
        exact .unset (.inr rfl)
      · obtain ⟨x, hx, hwx⟩ := bind_eq_ok.mp hw
        cases hwx
        exact timeout_of_seconds hseconds hx

/-- The timeouts of a built profile are above zero, and the writing one may be unset, just where the
document gives no nan for them. A nan that it gives is what the profile holds. -/
theorem timed_iff_of_build {source : String} {doc : Value} {p : Profile}
    (h : build source doc = .ok p) :
    Timeout (part? doc ["serial", "timeout_s"]) p.serial.timeout ∧ p.serial.timeout ≠ .null ∧
      Timeout (part? doc ["serial", "write_timeout_s"]) p.serial.writeTimeout ∧
      (p.serial.Timed ↔ ∀ name ∈ ["timeout_s", "write_timeout_s"], ∀ n,
        part? doc ["serial", name] ≠ some (.double (.nan n))) := by
  obtain ⟨ps, haccepts, hserial, hparts⟩ := serial_of_build h
  obtain ⟨b, -, y, -, t, ht, w, hw, hsettings⟩ := buildSerial_eq_ok.mp hserial
  obtain ⟨-, -, hforms⟩ := serial_iff.mp haccepts
  simp only [List.forall_mem_cons] at hforms
  obtain ⟨-, -, -, -, -, hseconds, hsecondsOrNull, -⟩ := hforms
  have hreading := timeout_of_field hseconds ht
  have hwriting := writeTimeout_of_field hsecondsOrNull hw
  rw [← hparts] at hreading hwriting
  rw [hsettings]
  refine ⟨hreading, nofun, hwriting, ?_⟩
  rw [List.forall_mem_cons, List.forall_mem_singleton, ← hreading.fits_iff, ← hwriting.fits_iff]
  constructor
  · rintro ⟨hread, hwrite⟩
    exact ⟨.inr hread, hwrite⟩
  · rintro ⟨hread, hwrite⟩
    exact ⟨hread.resolve_left nofun, hwrite⟩

/-- A reading timeout of twenty seconds. -/
theorem timed_iff_of_build_twenty :
    let doc := leastDocument "a" [(.str "timeout_s", .int 20)]
    ∃ p, build "a.yaml" doc = .ok p ∧
      (p.serial.Timed ↔ ∀ name ∈ ["timeout_s", "write_timeout_s"], ∀ n,
        part? doc ["serial", name] ≠ some (.double (.nan n))) := by
  intro doc
  have hbuilt : (build "a.yaml" doc).toOption.isSome = true := by decide +kernel
  obtain ⟨p, hp⟩ := Option.isSome_iff_exists.mp hbuilt
  obtain ⟨-, -, -, htimed⟩ := timed_iff_of_build (toOption_eq_some hp)
  exact ⟨p, toOption_eq_some hp, htimed⟩

/-- A nan as reading timeout, which is not above zero. -/
theorem build_untimed_nan :
    let doc := leastDocument "a" [(.str "timeout_s", .double (.nan 0))]
    ∃ p, build "a.yaml" doc = .ok p ∧ ¬ p.serial.Timed := by
  intro doc
  have hnan : ((build "a.yaml" doc).toOption.bind fun p => p.serial.timeout.toDouble.toOption) =
      some (.nan 0) := by decide +kernel
  obtain ⟨p, hp, htimeout⟩ := Option.bind_eq_some_iff.mp hnan
  refine ⟨p, toOption_eq_some hp, ?_⟩
  rintro ⟨⟨x, hx, hpos⟩, -⟩
  rw [hx] at htimeout
  cases htimeout
  exact Double.not_isPositive_nan 0 hpos

end Profile

end PenPlotter
