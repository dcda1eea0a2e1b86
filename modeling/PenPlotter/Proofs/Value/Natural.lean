import PenPlotter.Proofs.Profile.Declared
/-! # Natural numbers in documents

Where a schema asks for an integer within bounds from zero on, the value is a natural number, in form or as a
double without a fraction, and converting it gives that number. The items of byte strings are such numbers
in form.
-/
namespace PenPlotter.Value

def IsNatural (n : ℕ) : Value → Prop
  | .int i => i = n
  | .double x => x.isFinite = true ∧ x.exact = n
  | _ => False

variable {v : Value} {n : ℕ}

theorem isNatural_of_compareTo (hnumber : Kind.number.holds v = true)
    (h : v.compareTo n = some .eq) : v.IsNatural n := by
  cases v with
  | int i => simpa [compareTo, IsNatural, compare_eq_iff_eq] using h
  | double x =>
    cases x with
    | finite s m e hc =>
      rw [compareTo, Double.compareInt_eq hc, Option.some.injEq, compare_eq_iff_eq] at h
      exact ⟨rfl, by exact_mod_cast h⟩
    | infinite s => cases s <;> simp [compareTo, Double.compareInt] at h
    | nan p => simp [compareTo, Double.compareInt] at h
  | _ => cases hnumber

theorem isNatural_of_toInt (hkind : Kind.integer.holds v = true) (h : v.toInt = .ok (n : ℤ)) :
    v.IsNatural n := by
  obtain ⟨i, hi, hcompare⟩ := integer_of_holds hkind
  rw [hi, Except.ok.injEq] at h
  refine isNatural_of_compareTo ?_ (by rw [hcompare, h, compare_eq_iff_eq.mpr rfl])
  cases v <;> first | rfl | cases hkind

theorem isNatural_of_equal (h : v.equal (.int n) = true) : v.IsNatural n := by
  cases v with
  | int i => simpa [equal, same, IsNatural] using h
  | double x => exact isNatural_of_compareTo rfl (by simpa [equal, same, compareTo] using h)
  | bool b => simp [equal] at h
  | _ => simp [equal, same] at h

theorem IsNatural.unique {m : ℕ} (hn : v.IsNatural n) (hm : v.IsNatural m) : n = m := by
  cases v with
  | int i => exact_mod_cast hn.symm.trans hm
  | double x => exact_mod_cast hn.2.symm.trans hm.2
  | _ => cases hn

/-- A natural number within a bound, as schemas ask for it. -/
theorem natural_of_accepts {ks : List Kind} {bound : ℕ}
    (hks : ∀ k ∈ ks, k = .integer ∨ k = .null)
    (h : Schema.accepts [.kinds ks, .minimum 0, .maximum bound] v = true) :
    v = .null ∨ ∃ n : ℕ, v.toInt = .ok n ∧ v.IsNatural n ∧ n ≤ bound := by
  rcases toInt_of_accepts hks h with hnull | ⟨i, hi, hlo, hhi⟩
  · exact .inl hnull
  · right
    lift i to ℕ using hlo
    refine ⟨i, hi, isNatural_of_toInt ?_ hi, by exact_mod_cast hhi⟩
    obtain ⟨k, hk, hholds⟩ := Rule.kept_kinds.mp (Schema.accepts_cons.mp h).1
    rcases hks k hk with rfl | rfl
    · exact hholds
    · cases v with
      | null => cases hi
      | _ => cases hholds

/-- A value that became a byte is the number of it. -/
theorem toByte_eq {b : UInt8} (h : Schema.accepts Profile.byteSchema v = true)
    (hb : v.toByte = .ok b) : v = .int b.toNat := by
  obtain ⟨i, rfl⟩ := (toByte_iff h).mp ⟨b, hb⟩
  rw [toByte] at hb
  split at hb
  next hi =>
    cases hb
    have hlt : i.toNat < 256 := by omega
    simp [Nat.mod_eq_of_lt hlt, Int.toNat_of_nonneg hi.1]
  · cases hb

/-- A list that became bytes holds their numbers. -/
theorem items_of_toBytes {xs : List Value} {bytes : Text.Bytes}
    (h : Schema.accepts Profile.byteStringSchema (.list xs) = true)
    (hb : (list xs).toBytes = .ok bytes) :
    items xs = bytes.map fun b => .int b.toNat := by
  have hitems := Rule.kept_items.mp (Schema.accepts_cons.mp (Schema.accepts_cons.mp h).2).1
  have hmap : (items xs).map toByte = bytes.map .ok := mapM_eq_ok.mp hb
  generalize items xs = vs at hitems hmap
  clear h hb
  induction vs generalizing bytes with
  | nil =>
    cases bytes with
    | nil => rfl
    | cons b bytes => cases hmap
  | cons v vs ih =>
    cases bytes with
    | nil => cases hmap
    | cons b bytes =>
      rw [List.map_cons, List.map_cons, List.cons.injEq] at hmap
      rw [List.forall_mem_cons] at hitems
      rw [List.map_cons, toByte_eq hitems.1 hmap.1, ih hitems.2 hmap.2]

theorem text_natural (hn : n ≤ 65535) : (int n).text = .ok (Nat.toDigits 10 n) :=
  text_int (Profile.isInteger_of_bounds (Int.natCast_nonneg n) (by exact_mod_cast hn))

theorem untied_knot_ne_str {label : Label} {s : String} : (knot label v).untied ≠ .str s := by
  cases v <;> simp [untied]

/-- A text comes out of no knot. -/
theorem detached_eq_str {whole : Value} {s : String} : detached whole v = .str s ↔ v = .str s := by
  cases v with
  | knot l v => exact iff_of_false untied_knot_ne_str (by simp)
  | back l k => exact iff_of_false untied_knot_ne_str (by simp)
  | _ => rfl

theorem items_eq_strs {xs : List Value} {names : List String} :
    items xs = names.map .str ↔ xs = names.map .str := by
  rw [items]
  generalize list xs = whole
  induction xs generalizing names with
  | nil => rfl
  | cons x xs ih =>
    cases names with
    | nil => simp
    | cons name names =>
      rw [List.map_cons, List.map_cons, List.cons.injEq, List.cons.injEq, ih, detached_eq_str]

end PenPlotter.Value
