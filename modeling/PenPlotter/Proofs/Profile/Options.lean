import PenPlotter.Profile.Build
/-! # Options by name

The configuration of some names has the options that are named. When no name comes twice, its number is the
sum of their weights.
-/
namespace PenPlotter

/-- The sum of the weights of the options that some values name. -/
inductive Config.Weighs : List Value → Nat → Prop
  | nil : Weighs [] 0
  | hardware {vs : List Value} {n : Nat} (h : Weighs vs n) : Weighs (.str "hw_handshake" :: vs) (1 + n)
  | mode {vs : List Value} {n : Nat} (h : Weighs vs n) : Weighs (.str "mon_mode_ctl" :: vs) (4 + n)
  | enabled {vs : List Value} {n : Nat} (h : Weighs vs n) : Weighs (.str "mon_mode_ena" :: vs) (8 + n)

namespace Profile

/-- Options that a configuration does not have add their weights. -/
theorem value_or {c o : Config} (h : c.and o = {}) : (c.or o).value = c.value + o.value := by
  have hbit (a b : Bool) (hab : (a && b) = false) : (a || b).toNat = a.toNat + b.toNat := by
    cases a <;> cases b <;> first | rfl | cases hab
  rw [Config.and, Config.mk.injEq] at h
  simp only [Config.or, Config.value, hbit _ _ h.1, hbit _ _ h.2.1, hbit _ _ h.2.2]
  omega

theorem or_and {c o p : Config} (hc : c.and p = {}) (ho : o.and p = {}) : (c.or o).and p = {} := by
  rw [Config.and, Config.mk.injEq] at hc ho
  simp only [Config.or, Config.and, Bool.and_or_distrib_right, hc.1, hc.2.1, hc.2.2, ho.1, ho.2.1,
    ho.2.2]
  rfl

theorem options_disjoint : ∀ o ∈ configNames, ∀ p ∈ configNames, o.1 ≠ p.1 → o.2.and p.2 = {} := by
  decide

theorem find?_option {name : String} (h : name ∈ configNames.map (·.1)) :
    ∃ o ∈ configNames, o.1 = name ∧ configNames.find? (·.1 == name) = some o := by
  obtain ⟨o, ho, rfl⟩ := List.mem_map.mp h
  refine ⟨o, ho, rfl, ?_⟩
  revert ho o
  decide

theorem weighs_option {o : String × Config} (ho : o ∈ configNames) {vs : List Value} {n : Nat}
    (h : Config.Weighs vs n) : Config.Weighs (.str o.1 :: vs) (o.2.value + n) := by
  simp only [configNames, List.mem_cons, List.not_mem_nil, or_false] at ho
  rcases ho with rfl | rfl | rfl
  · exact .hardware h
  · exact .mode h
  · exact .enabled h

def addOption (c : Config) (v : Value) : Config :=
  match configNames.find? (·.1 == textOf v) with
  | some option => c.or option.2
  | none => c

/-- Names that are all different and not of options in the configuration add their weights. -/
theorem foldl_weighs {names : List String} (hnames : names.Nodup)
    (hknown : ∀ name ∈ names, name ∈ configNames.map (·.1)) {c : Config}
    (hnew : ∀ o ∈ configNames, o.1 ∈ names → c.and o.2 = {}) :
    ∃ n, Config.Weighs (names.map .str) n ∧
      ((names.map Value.str).foldl addOption c).value = c.value + n := by
  induction names generalizing c with
  | nil => exact ⟨0, .nil, rfl⟩
  | cons name names ih =>
    rw [List.nodup_cons] at hnames
    rw [List.forall_mem_cons] at hknown
    obtain ⟨o, ho, rfl, hfind⟩ := find?_option hknown.1
    have hstep : addOption c (.str o.1) = c.or o.2 := by
      rw [addOption, textOf, hfind]
    have hdisjoint : c.and o.2 = {} := hnew o ho List.mem_cons_self
    obtain ⟨n, hn, hvalue⟩ := ih hnames.2 hknown.2 (c := c.or o.2) fun p hp hpmem =>
      or_and (hnew p hp (List.mem_cons_of_mem _ hpmem)) (options_disjoint o ho p hp fun heq =>
        hnames.1 (heq ▸ hpmem))
    refine ⟨o.2.value + n, weighs_option ho hn, ?_⟩
    rw [List.map_cons, List.foldl_cons, hstep, hvalue, value_or hdisjoint, Nat.add_assoc]

/-- The number of the options with some names that are all different. -/
theorem buildConfig_weighs {names : List String} (hnames : names.Nodup)
    (hknown : ∀ name ∈ names, name ∈ configNames.map (·.1)) :
    Config.Weighs (names.map .str) (buildConfig (names.map .str)).value := by
  obtain ⟨n, hn, hvalue⟩ := foldl_weighs hnames hknown (c := {}) fun o _ _ => rfl
  have hn' : (buildConfig (names.map .str)).value = n := hvalue.trans (Nat.zero_add n)
  rwa [hn']

end Profile

end PenPlotter
