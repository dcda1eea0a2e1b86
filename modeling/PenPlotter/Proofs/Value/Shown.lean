import PenPlotter.Value.Text
/-! # Which values can be shown

A value can be shown where every integer in it, at any depth, can be written and its parts within each
other are no more than there is room for. Otherwise showing it ends with the fault of too many digits or
that of too many nested calls, whichever is met first. The same holds of its plain text, where strings
and dates are their own texts.
-/
namespace PenPlotter
open Text

namespace Text

theorem escapeHalves_codes (s : List Char) : escapeHalves (codes s) = s := by
  induction s with
  | nil => rfl
  | cons c s ih => exact congrArg (c :: ·) ih

end Text

namespace Value

mutual
def writable : Value → Bool
  | .int i => Decimal.writable i
  | .list xs | .tuple xs | .set xs => writableAll xs
  | .map es => writableEntries es
  | .knot _ v => writable v
  | _ => true
def writableAll : List Value → Bool
  | [] => true
  | x :: xs => writable x && writableAll xs
def writableEntries : List (Value × Value) → Bool
  | [] => true
  | (k, x) :: es => writable k && (writable x && writableEntries es)
end

theorem writableAll_eq (xs : List Value) : writableAll xs = xs.all writable := by
  induction xs with
  | nil => rfl
  | cons x xs ih => rw [writableAll, ih, List.all_cons]

theorem writableEntries_eq (es : List (Value × Value)) :
    writableEntries es = es.all fun e => e.1.writable && e.2.writable := by
  induction es with
  | nil => rfl
  | cons e es ih =>
    rcases e with ⟨k, x⟩
    rw [writableEntries, ih, List.all_cons, Bool.and_assoc]

def nestsBy (part : Value → Bool) : Value → Bool
  | .list xs | .tuple xs | .set xs => xs.all part
  | .map es => es.all fun e => part e.1 && part e.2
  | .knot _ v => nestsBy part v
  | _ => true

/-- Whether no more than `room` values of a value are within each other. -/
def nestsIn : (room : Nat) → Value → Bool
  | 0, _ => false
  | room + 1, v => nestsBy (nestsIn room) v

theorem nestsIn_list {room : Nat} {xs : List Value} :
    nestsIn (room + 1) (.list xs) = xs.all (nestsIn room) := rfl

theorem nestsIn_map {room : Nat} {es : List (Value × Value)} :
    nestsIn (room + 1) (.map es) = es.all fun e => nestsIn room e.1 && nestsIn room e.2 := rfl

theorem nestsBy_mono {f g : Value → Bool} (h : ∀ v, f v = true → g v = true) :
    (v : Value) → nestsBy f v = true → nestsBy g v = true
  | .list xs | .tuple xs | .set xs => by
    rw [nestsBy, nestsBy, List.all_eq_true, List.all_eq_true]
    exact fun hall x hx => h x (hall x hx)
  | .map es => by
    simp only [nestsBy, List.all_eq_true, Bool.and_eq_true]
    exact fun hall e he => ⟨h e.1 (hall e he).1, h e.2 (hall e he).2⟩
  | .knot _ v => by
    rw [nestsBy, nestsBy]
    exact nestsBy_mono h v
  | .null | .bool _ | .int _ | .double _ | .str _ | .codes _ | .bytes _ | .date _ | .moment _
  | .back .. => fun _ => rfl

theorem nestsIn_succ {room : Nat} {v : Value} (h : nestsIn room v = true) :
    nestsIn (room + 1) v = true := by
  induction room generalizing v with
  | zero => cases h
  | succ room ih => exact nestsBy_mono (fun w hw => ih hw) v h

theorem nestsIn_mono {room more : Nat} (hle : room ≤ more) {v : Value} (h : nestsIn room v = true) :
    nestsIn more v = true := by
  induction hle with
  | refl => exact h
  | step _ ih => exact nestsIn_succ ih

/-- A result that is there where integers can be written (`w`) and there is room (`n`). -/
inductive ShownIf {α : Type} : (w n : Bool) → Except Fault α → Prop
  | ok (a : α) : ShownIf true true (.ok a)
  | digits (n : Bool) : ShownIf false n (.error .tooManyDigits)
  | depth (w : Bool) (during : String) : ShownIf w false (.error (.tooDeep during))

namespace ShownIf
variable {α β : Type} {w n : Bool} {r : Except Fault α}

theorem bind {u m : Bool} {f : α → Except Fault β} (h : ShownIf w n r)
    (hf : ∀ a, ShownIf u m (f a)) : ShownIf (w && u) (n && m) (r >>= f) := by
  cases h with
  | ok a => exact hf a
  | digits n => exact .digits _
  | depth w during => exact .depth _ during

theorem map (h : ShownIf w n r) (f : α → β) : ShownIf w n (r >>= fun a => pure (f a)) := by
  have hbind := h.bind (f := fun a => pure (f a)) fun a => .ok (f a)
  rwa [Bool.and_true, Bool.and_true] at hbind

theorem mapM {f : α → Except Fault β} {w n : α → Bool} {xs : List α}
    (h : ∀ x ∈ xs, ShownIf (w x) (n x) (f x)) : ShownIf (xs.all w) (xs.all n) (xs.mapM f) := by
  induction xs with
  | nil => exact .ok []
  | cons x xs ih =>
    rw [List.forall_mem_cons] at h
    rw [List.mapM_cons, List.all_cons, List.all_cons]
    exact h.1.bind fun y => (ih h.2).map (y :: ·)

end ShownIf

theorem writeInt_shownIf (i : Int) : ShownIf (Decimal.writable i) true (writeInt i) := by
  unfold writeInt
  cases Decimal.writable i with
  | false => exact .digits true
  | true => exact .ok _

/-- A value is shown where its parts are. -/
theorem shownBy_shownIf {part : Value → Except Fault (List Char)} {near : Value → Bool}
    (h : ∀ v, ShownIf v.writable (near v) (part v)) :
    (v : Value) → ShownIf v.writable (nestsBy near v) (shownBy part v)
  | .null => .ok _
  | .bool _ => .ok _
  | .int i => by
    rw [shownBy, writable]
    exact writeInt_shownIf i
  | .double _ => .ok _
  | .str _ => .ok _
  | .codes _ => .ok _
  | .bytes _ => .ok _
  | .date _ => .ok _
  | .moment _ => .ok _
  | .list xs | .tuple xs => by
    rw [shownBy, writable, writableAll_eq, nestsBy]
    exact (ShownIf.mapM fun x _ => h x).map _
  | .set xs => by
    rw [shownBy, writable, writableAll_eq, nestsBy]
    cases xs with
    | nil => exact .ok _
    | cons x xs => exact (ShownIf.mapM fun x _ => h x).map _
  | .map es => by
    rw [shownBy, writable, writableEntries_eq, nestsBy]
    exact (ShownIf.mapM fun e _ => (h e.1).bind fun key => (h e.2).map _).map _
  | .knot _ v => by
    rw [shownBy, writable, nestsBy]
    exact shownBy_shownIf h v
  | .back _ _ => .ok _

theorem shownIn_shownIf (room : Nat) (v : Value) :
    ShownIf v.writable (nestsIn room v) (shownIn room v) := by
  induction room generalizing v with
  | zero => exact .depth _ _
  | succ room ih => exact shownBy_shownIf ih v

@[simp] theorem shown_int (i : Int) : (Value.int i).shown = writeInt i := rfl

def fits (v : Value) : Bool := nestsIn showRoom v

theorem shown_shownIf (v : Value) : ShownIf v.writable v.fits v.shown := shownIn_shownIf showRoom v

def nested : Nat → Value
  | 0 => .list []
  | n + 1 => .list [nested n]

theorem writable_nested (n : Nat) : (nested n).writable = true := by
  induction n with
  | zero => rfl
  | succ n ih => rw [nested, writable, writableAll, ih, writableAll, Bool.and_self]

theorem nestsIn_nested {room n : Nat} (h : room ≤ n) : nestsIn room (nested n) = false := by
  induction room generalizing n with
  | zero => rfl
  | succ room ih =>
    cases n with
    | zero => cases h
    | succ n => rw [nested, nestsIn_list, List.all_cons, ih (Nat.le_of_succ_le_succ h), Bool.false_and]

theorem shown_of_not_fits {v : Value} (hw : v.writable = true) (h : v.fits = false) :
    ∃ during, v.shown = .error (.tooDeep during) := by
  have hshown := shown_shownIf v
  rw [hw, h] at hshown
  generalize v.shown = r at hshown
  cases hshown with
  | depth _ during => exact ⟨during, rfl⟩

theorem textCodes_shownIf (v : Value) : ShownIf v.writable v.fits v.textCodes := by
  have hshown := (shown_shownIf v).map Text.codes
  unfold textCodes
  split
  · exact .ok _
  · exact .ok _
  · exact .ok _
  · exact .ok _
  · exact hshown

theorem text_shownIf (v : Value) : ShownIf v.writable v.fits v.text :=
  (textCodes_shownIf v).map escapeHalves

end Value

/-! ## Limits -/

inductive Fault.IsLimit : Fault → Prop
  | digits : IsLimit .tooManyDigits
  | depth (during : String) : IsLimit (.tooDeep during)

inductive ToldIf {α : Type} (p : Prop) : Except Fault α → Prop
  | ok (a : α) : ToldIf p (.ok a)
  | error {f : Fault} (h : ¬ p) (hf : f.IsLimit) : ToldIf p (.error f)

namespace ToldIf
variable {α β : Type} {p q : Prop}

theorem of_shownIf {w n : Bool} {r : Except Fault α} (h : Value.ShownIf w n r)
    (hp : p → w = true ∧ n = true) : ToldIf p r := by
  cases h with
  | ok a => exact .ok a
  | digits => exact .error (fun h => by cases (hp h).1) .digits
  | depth => exact .error (fun h => by cases (hp h).2) (.depth _)

theorem imp {r : Except Fault α} (h : ToldIf q r) (hpq : p → q) : ToldIf p r := by
  cases h with
  | ok a => exact .ok a
  | error hq hf => exact .error (fun hp => hq (hpq hp)) hf

theorem bind {r : Except Fault α} {f : α → Except Fault β} (h : ToldIf p r)
    (hf : ∀ a, r = .ok a → ToldIf p (f a)) : ToldIf p (r >>= f) := by
  cases h with
  | ok a => exact hf a rfl
  | error hp hlimit => exact .error hp hlimit

theorem map {r : Except Fault α} (h : ToldIf p r) (f : α → β) :
    ToldIf p (r >>= fun a => pure (f a)) :=
  h.bind fun a _ => .ok (f a)

theorem mapM {f : α → Except Fault β} {xs : List α} (h : ∀ x ∈ xs, ToldIf p (f x)) :
    ToldIf p (xs.mapM f) := by
  induction xs with
  | nil => exact .ok []
  | cons x xs ih =>
    rw [List.forall_mem_cons] at h
    rw [List.mapM_cons]
    exact h.1.bind fun y _ => (ih h.2).map (y :: ·)

theorem exists_ok {r : Except Fault α} (h : ToldIf p r) (hp : p) : ∃ a, r = .ok a := by
  cases h with
  | ok a => exact ⟨a, rfl⟩
  | error h => exact absurd hp h

theorem isLimit {f : Fault} (h : ToldIf p (.error f : Except Fault α)) : f.IsLimit := by
  cases h with
  | error _ hf => exact hf

end ToldIf

def Value.showable (v : Value) : Bool := v.writable && v.fits

theorem Value.showable_iff {v : Value} :
    v.showable = true ↔ v.writable = true ∧ v.fits = true := Bool.and_eq_true_iff

theorem Value.ShownIf.toldIf {α : Type} {v : Value} {r : Except Fault α}
    (h : ShownIf v.writable v.fits r) : ToldIf (v.showable = true) r :=
  .of_shownIf h showable_iff.mp

theorem Value.ShownIf.showable_of_ok {α : Type} {v : Value} {r : Except Fault α} {a : α}
    (h : ShownIf v.writable v.fits r) (hr : r = .ok a) : v.showable = true := by
  subst hr
  unfold showable
  generalize v.writable = w, v.fits = n at h ⊢
  cases h
  rfl

theorem Value.shown_toldIf {v : Value} {p : Prop} (hp : p → v.writable = true ∧ v.fits = true) :
    ToldIf p v.shown :=
  .of_shownIf (shown_shownIf v) hp

end PenPlotter
