import PenPlotter.Proofs.Job.Spelled
import PenPlotter.Proofs.Plot.Decoding
/-! # What built jobs hold

The commands of a job hold numbers only, integers and finite doubles: the schema lets nothing else
through, and building refuses the doubles that are not finite. No bound of the schema keeps an integer
from having more digits than can be written. But a command with a parameter is first tried as a bare
one, and the message on that breach shows it; so a job with such an integer fails there, and one that
is built can be rendered.
-/
namespace PenPlotter

namespace Job
open Schema
variable {source : String}

theorem commands_numeric {vs : List Value} (h : ∀ v ∈ vs, accepts commandSchema v = true) {i : ℕ}
    {cs : List Command} (hcs : commands source i vs = .ok cs) : ∀ c ∈ cs, c.Numeric := by
  have hspells := (commands_eq_ok fun v hv => (commandSchema_iff.mp (h v hv)).1).mp hcs
  exact spelled_numeric hspells fun v hv =>
    (Value.showable_iff.mp (commandSchema_iff.mp (h v hv)).2).1

theorem items_accepts {doc : Value} (h : accepts schema doc = true) :
    ∀ v ∈ itemsOf doc, accepts commandSchema v = true := by
  obtain ⟨es, rfl⟩ := object_of_accepts h
  obtain ⟨x, hx⟩ : ∃ x, Value.field? "commands" es = some x :=
    accepts_needed h (by simp [needed, schema])
  have hcommands : accepts [.kinds [.array], .items commandSchema] x = true :=
    accepts_field h (by simp [fields, schema]) hx
  obtain ⟨xs, rfl⟩ := array_of_accepts hcommands
  rw [itemsOf, Value.lookup?_entries, hx]
  exact accepts_item hcommands (by simp [each])

theorem build_numeric {doc : Value} {cs : List Command} (h : build source doc = .ok cs) :
    ∀ c ∈ cs, c.Numeric := by
  obtain ⟨u, hcheck, hcs⟩ := bind_eq_ok.mp h
  exact commands_numeric (items_accepts (check_eq_ok.mp hcheck)) hcs

/-- A job that is built can be rendered. -/
theorem build_encodes (source : String) (doc : Value) (cs : List Command)
    (h : build source doc = .ok cs) :
    ∃ bytes, Item.encode (.program (cs.map .command)) = .ok bytes := by
  obtain ⟨u, hcheck, hcs⟩ := bind_eq_ok.mp h
  have haccepts : accepts schema doc = true := check_eq_ok.mp hcheck
  obtain ⟨texts, -, hstream, -⟩ :=
    Item.encodeAll_numeric (commands_numeric (items_accepts haccepts) hcs)
  exact ⟨_, hstream⟩

def mixedJob : Value :=
  .map [(.str "commands", .list [.str "initialize",
    .map [(.str "select_pen", .double (Double.ofRatio false 2 1))],
    .map [(.str "velocity", .int 20)],
    .map [(.str "plot_absolute", .list [.list [.double (Double.ofRatio true 1 2), .int 7]])]])]

theorem build_encodes_mixed : ∃ cs, build "<job>" mixedJob = .ok cs ∧
    ∃ bytes, Item.encode (.program (cs.map .command)) = .ok bytes := by
  have hbuilds : (build "<job>" mixedJob).toOption.isSome = true := by
    decide +kernel
  cases hcs : build "<job>" mixedJob with
  | error e =>
    rw [hcs] at hbuilds
    cases hbuilds
  | ok cs => exact ⟨cs, rfl, build_encodes "<job>" mixedJob cs hcs⟩

end Job

end PenPlotter
