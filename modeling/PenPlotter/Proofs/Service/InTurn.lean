import PenPlotter.Proofs.Service.Render
/-! # Renderings in turn

Of renderings in turn the first one that fails tells the failure; where none does, their bytes stand one
behind the other. A program is rendered command by command in turn, behind the set-up of its profile. So a
program with another one behind it is rendered as the two in turn, whatever they hold.
-/
namespace PenPlotter
open Text

variable {ε δ : Type}

/-- Two renderings in turn: the bytes of both, or the failure of the first one that has none. -/
def inTurn : Except ε Bytes → Except ε Bytes → Except ε Bytes
  | .error e, _ => .error e
  | .ok _, .error e => .error e
  | .ok a, .ok b => .ok (a ++ b)

def allInTurn (rs : List (Except ε Bytes)) : Except ε Bytes := rs.foldr inTurn (.ok [])

theorem nil_inTurn (r : Except ε Bytes) : inTurn (.ok []) r = r := by
  cases r <;> rfl

theorem inTurn_nil (r : Except ε Bytes) : inTurn r (.ok []) = r := by
  cases r with
  | error e => rfl
  | ok a => rw [inTurn, List.append_nil]

theorem inTurn_assoc (r s t : Except ε Bytes) :
    inTurn (inTurn r s) t = inTurn r (inTurn s t) := by
  cases r with
  | error e => rfl
  | ok a =>
    cases s with
    | error e => rfl
    | ok b =>
      cases t with
      | error e => rfl
      | ok c => simp only [inTurn, List.append_assoc]

theorem allInTurn_append (rs ss : List (Except ε Bytes)) :
    allInTurn (rs ++ ss) = inTurn (allInTurn rs) (allInTurn ss) := by
  induction rs with
  | nil => exact (nil_inTurn _).symm
  | cons r rs ih =>
    change inTurn r (allInTurn (rs ++ ss)) = inTurn (inTurn r (allInTurn rs)) (allInTurn ss)
    rw [ih, inTurn_assoc]

theorem mapError_inTurn (f : ε → δ) (r s : Except ε Bytes) :
    (inTurn r s).mapError f = inTurn (r.mapError f) (s.mapError f) := by
  cases r with
  | error e => rfl
  | ok a => cases s <;> rfl

/-- Renderings that are all put together at the end are renderings in turn. -/
theorem flatten_mapM {α : Type} (f : α → Except ε Bytes) (xs : List α) :
    (do return (← xs.mapM f).flatten) = allInTurn (xs.map f) := by
  induction xs with
  | nil => rfl
  | cons x xs ih =>
    rw [List.mapM_cons]
    change _ = inTurn (f x) (allInTurn (xs.map f))
    rw [← ih]
    cases f x with
    | error e => rfl
    | ok a => cases xs.mapM f <;> rfl

namespace Item

theorem encode_program (items : List Item) :
    encode (.program items) = allInTurn (items.map commandFrame) :=
  flatten_mapM commandFrame items

theorem encode_command {x : Item} (h : x.isCommand = true) : x.encode = x.commandFrame := by
  cases x with
  | command c => rfl
  | loosePlot items => rfl
  | _ => cases h

theorem append_command {ps : List Item} {x : Item} (h : x.isCommand = true) :
    append ps x = .ok (ps ++ [x]) := by
  cases x with
  | command c => rfl
  | loosePlot items => rfl
  | _ => cases h

end Item

namespace Catalog
variable {c : Catalog} {id : Option String} {p : Profile}

/-- For a profile, frames are rendered in turn. -/
theorem render_resolved (h : c.resolve id = .ok p) (program : Item) (setup : Bool) :
    c.render program id setup = (allInTurn (p.frames setup program)).mapError .fault := by
  have hframes := flatten_mapM (fun f => f) (p.frames setup program)
  rw [List.map_id'] at hframes
  rw [← hframes, render_of_resolve h]
  cases (p.frames setup program).mapM fun f => f <;> rfl

end Catalog

/-- Adding a program, its commands or a single command to a program puts them at the end, and the whole is
rendered as the two in turn: by itself, and for a profile, whose set-up is rendered once and in front. -/
theorem rendered_inTurn (ps : List Item) :
    (∀ qs, Item.append ps (.program qs) = .ok (ps ++ qs) ∧
      Item.appended ps qs = ps ++ qs ∧
      Item.encode (.program (ps ++ qs)) =
        inTurn (Item.encode (.program ps)) (Item.encode (.program qs))) ∧
    (∀ x : Item, x.isCommand = true → Item.append ps x = .ok (ps ++ [x]) ∧
      Item.encode (.program (ps ++ [x])) = inTurn (Item.encode (.program ps)) x.encode) ∧
    ∀ (c : Catalog) (id : Option String),
      (∀ qs, c.render (.program (ps ++ qs)) id true =
        inTurn (c.render (.program ps) id true) (c.render (.program qs) id false)) ∧
      ∀ p, c.resolve id = .ok p → c.render (.program ps) id true =
        (inTurn (allInTurn (p.setup.map fun i => Item.encode (.instruction i)))
          (Item.encode (.program ps))).mapError .fault := by
  have happend (qs : List Item) : Item.encode (.program (ps ++ qs)) =
      inTurn (Item.encode (.program ps)) (Item.encode (.program qs)) := by
    rw [Item.encode_program, List.map_append, allInTurn_append, ← Item.encode_program,
      ← Item.encode_program]
  refine ⟨fun qs => ⟨rfl, rfl, happend qs⟩, fun x hx => ⟨Item.append_command hx, ?_⟩,
    fun c id => ⟨fun qs => ?_, fun p hp => ?_⟩⟩
  · rw [happend [x], Item.encode_command hx, Item.encode_program [x]]
    exact congrArg _ (inTurn_nil x.commandFrame)
  · cases hp : c.resolve id with
    | error e =>
      simp only [Catalog.render_unresolved hp]
      rfl
    | ok p =>
      have hframes : p.frames true (.program (ps ++ qs)) =
          p.frames true (.program ps) ++ p.frames false (.program qs) := by
        simp [Profile.frames, Item.commandFrames, Item.framesOf, Item.walk]
      simp only [Catalog.render_resolved hp]
      rw [hframes, allInTurn_append, mapError_inTurn]
  · rw [Catalog.render_resolved hp, Item.encode_program, ← allInTurn_append]
    rfl

/-- A program whose second command has a fault, with another such command behind it. -/
theorem rendered_inTurn_faults :
    let nan : Value := .double (.nan 0)
    let ps : List Item := [.command .penUp, .command (.velocity nan)]
    let x : Item := .command (.selectPen .null)
    let p : Profile := { id := "tiny", name := [] }
    Item.encode (.program ps) = .error (.notFinite ['n', 'a', 'n']) ∧
      (x.isCommand = true ∧ Item.append ps x = .ok (ps ++ [x]) ∧
        Item.encode (.program (ps ++ [x])) = inTurn (Item.encode (.program ps)) x.encode) ∧
      Catalog.resolve [p] (some "tiny") = .ok p ∧
      Catalog.render [p] (.program ps) (some "tiny") true =
        (inTurn (allInTurn (p.setup.map fun i => Item.encode (.instruction i)))
          (Item.encode (.program ps))).mapError .fault := by
  intro nan ps x p
  have hfault : Item.encode (.program ps) = .error (.notFinite ['n', 'a', 'n']) := rfl
  obtain ⟨-, hcommand, hprofile⟩ := rendered_inTurn ps
  have hp : Catalog.resolve [p] (some "tiny") = .ok p := rfl
  exact ⟨hfault, ⟨rfl, hcommand x rfl⟩, hp, (hprofile [p] (some "tiny")).2 p hp⟩

end PenPlotter
