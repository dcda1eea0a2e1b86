import PenPlotter.CommandLine.Outcome
import PenPlotter.Proofs.Service.Render
import PenPlotter.Proofs.Text.Printed
/-! # The course of actions

What the commands leave on a desk, whatever happens on the way. The warnings come first, on the error
output; then each command stops at the first of its steps that fails, and the desk keeps what was done
before.
-/
namespace PenPlotter.CommandLine
open Text

variable {α β : Type} {d d' : Desk} {P Q : Prop}

def Action.on (a : Action α) (d : Desk) : Except Failure α × Desk := a.run.run d

namespace Action
variable {x : Action α} {f : α → Action β}

theorem on_bind_ok {a : α} (h : x.on d = (.ok a, d')) : Action.on (x >>= f) d = (f a).on d' := by
  have hrun : x.run.run d = (.ok a, d') := h
  unfold Action.on
  rw [ExceptT.run_bind, StateT.run_bind, hrun]
  rfl

theorem on_bind_error {e : Failure} (h : x.on d = (.error e, d')) :
    Action.on (x >>= f) d = (.error e, d') := by
  have hrun : x.run.run d = (.error e, d') := h
  unfold Action.on
  rw [ExceptT.run_bind, StateT.run_bind, hrun]
  rfl

theorem on_get_bind {f : Desk → Action β} : Action.on (get >>= f) d = (f d).on d := rfl

theorem on_mk_bind_ok {r : Except Failure α} {a : α} (h : r = .ok a) :
    Action.on ((ExceptT.mk (pure r) : Action α) >>= f) d = (f a).on d :=
  on_bind_ok (congrArg (·, d) h)

theorem on_mk_bind_error {r : Except Failure α} {e : Failure} (h : r = .error e) :
    Action.on ((ExceptT.mk (pure r) : Action α) >>= f) d = (.error e, d) :=
  on_bind_error (congrArg (·, d) h)

end Action

/-! ## Printing -/

def told (s : List Char) : List Char := escapeHalves (dropSequences (codes s)) ++ ['\n']

theorem Desk.tell_eq (s : List Char) (d : Desk) : d.tell s = { d with err := d.err ++ told s } := by
  unfold Desk.tell told
  rw [List.append_assoc]

theorem tell_on (s : String) (d : Desk) :
    (CommandLine.tell s).on d = (.ok (), { d with err := d.err ++ told s.toList }) :=
  congrArg (Except.ok (), ·) (d.tell_eq s.toList)

theorem tells_on (f : String → String) (ws : List String) (d : Desk) :
    (ws.forM fun w => CommandLine.tell (f w)).on d =
      (.ok (), { d with err := d.err ++ ws.flatMap fun w => told (f w).toList }) := by
  induction ws generalizing d with
  | nil =>
    rw [List.flatMap_nil, List.append_nil]
    rfl
  | cons w ws ih =>
    have hcons : ((w :: ws).forM fun w => CommandLine.tell (f w)) =
        CommandLine.tell (f w) >>= fun _ => ws.forM fun w => CommandLine.tell (f w) := rfl
    rw [hcons, Action.on_bind_ok (tell_on (f w) d), ih]
    simp only [List.flatMap_cons, List.append_assoc]

/-- A print that is done on a condition, and otherwise stops with a fault. Either way nothing but the
standard output grows. -/
inductive Prints {α : Type} (P : Prop) (d : Desk) : Except Failure α × Desk → Prop
  | done (h : P) (a : α) (lines : Bytes) : Prints P d (.ok a, { d with out := d.out ++ lines })
  | stopped (h : ¬ P) (f : Fault) (lines : Bytes) :
      Prints P d (.error (.fault f), { d with out := d.out ++ lines })

namespace Prints

theorem congr {r : Except Failure α × Desk} (h : Prints P d r) (hPQ : P ↔ Q) : Prints Q d r := by
  rwa [← propext hPQ]

theorem done_quietly (h : P) (a : α) : Prints P d (.ok a, d) := by
  have hdone : Prints P d (.ok a, { d with out := d.out ++ [] }) := .done h a []
  rwa [List.append_nil] at hdone

theorem stopped_quietly (h : ¬ P) (f : Fault) :
    Prints P d ((.error (.fault f), d) : Except Failure α × Desk) := by
  have hstopped : Prints P d
      ((.error (.fault f), { d with out := d.out ++ [] }) : Except Failure α × Desk) := .stopped h f []
  rwa [List.append_nil] at hstopped

theorem bind {x : Action α} {f : α → Action β} (hx : Prints P d (x.on d))
    (hf : ∀ a lines, Prints Q { d with out := d.out ++ lines }
      ((f a).on { d with out := d.out ++ lines })) : Prints (P ∧ Q) d (Action.on (x >>= f) d) := by
  generalize hrun : x.on d = run at hx
  cases hx with
  | stopped h fault lines =>
    rw [Action.on_bind_error hrun]
    exact .stopped (fun hand => h hand.1) fault lines
  | done h a lines =>
    rw [Action.on_bind_ok hrun]
    have hrest := hf a lines
    generalize (f a).on { d with out := d.out ++ lines } = rest at hrest
    cases hrest with
    | done hQ b more =>
      rw [List.append_assoc]
      exact .done ⟨h, hQ⟩ b (lines ++ more)
    | stopped hQ fault more =>
      rw [List.append_assoc]
      exact .stopped (fun hand => hQ hand.2) fault (lines ++ more)

end Prints

def Output.Takes (o : Output) (x : Code) : Prop := (o.bytes? x).isSome = true

def Output.TakesAll (o : Output) (s : String) : Prop := ∀ c ∈ s.toList, o.Takes (.char c)

namespace Output

theorem takes_ascii (o : Output) {x : Code} (hx : x.isAscii = true) : o.Takes x := by
  cases x with
  | half n => cases hx
  | char c =>
    unfold Takes
    rw [o.ascii (of_decide_eq_true hx)]
    rfl

theorem takes_of_isAscii (o : Output) {s : List Char} (hs : IsAscii s) :
    ∀ c ∈ s, o.Takes (.char c) := fun c hc => o.takes_ascii (decide_eq_true (hs c hc))

/-- A text is written where each of its code points is. -/
theorem write_iff (o : Output) (s : List Code) : (∃ line, o.write s = .ok line) ↔ ∀ x ∈ s, o.Takes x := by
  have hparts : (∃ parts, s.mapM o.bytes? = some parts) ↔ ∀ x ∈ s, o.Takes x := by
    induction s with
    | nil => exact iff_of_true ⟨[], rfl⟩ nofun
    | cons x s ih =>
      rw [List.forall_mem_cons, ← ih, List.mapM_cons, Takes, Option.isSome_iff_exists]
      cases o.bytes? x with
      | none => exact iff_of_false nofun fun h => nomatch h.1
      | some part =>
        cases s.mapM o.bytes? with
        | none => exact iff_of_false nofun fun h => nomatch h.2
        | some parts => exact iff_of_true ⟨part :: parts, rfl⟩ ⟨⟨part, rfl⟩, parts, rfl⟩
  rw [← hparts]
  unfold write
  cases s.mapM o.bytes? with
  | none => exact iff_of_false nofun nofun
  | some parts => exact iff_of_true ⟨_, rfl⟩ ⟨parts, rfl⟩

/-- Control sequences and the end of a line make no difference. -/
theorem line_iff (o : Output) (s : List Code) :
    (∃ line, o.write (dropSequences s ++ codes ['\n']) = .ok line) ↔ ∀ x ∈ s, o.Takes x := by
  have hend : o.Takes (.char '\n') := o.takes_ascii rfl
  rw [write_iff]
  constructor
  · intro h x hx
    cases hascii : x.isAscii with
    | true => exact o.takes_ascii hascii
    | false => exact h x (List.mem_append_left _ ((mem_dropSequences hascii s).mpr hx))
  · intro h x hx
    cases hascii : x.isAscii with
    | true => exact o.takes_ascii hascii
    | false =>
      rcases List.mem_append.mp hx with hx | hx
      · exact h x ((mem_dropSequences hascii s).mp hx)
      · rwa [List.mem_singleton.mp hx]

theorem write_ascii (o : Output) {s : List Char} (hs : IsAscii s) :
    o.write (codes s) = .ok (Utf8.encode s) := by
  have hparts : (codes s).mapM o.bytes? = some (s.map String.utf8EncodeChar) := by
    induction s with
    | nil => rfl
    | cons c s ih =>
      rw [IsAscii, List.forall_mem_cons] at hs
      change (Code.char c :: codes s).mapM o.bytes? = _
      rw [List.mapM_cons, o.ascii hs.1, ih hs.2]
      rfl
  unfold write
  rw [hparts]
  rfl

theorem utf8_takes (c : Char) : utf8.Takes (.char c) := rfl

end Output

theorem printCodes_prints (s : List Code) (d : Desk) :
    Prints (∀ x ∈ s, d.output.Takes x) d ((printCodes s).on d) := by
  have hline := d.output.line_iff s
  unfold printCodes
  rw [Action.on_get_bind]
  cases hwrite : d.output.write (dropSequences s ++ codes ['\n']) with
  | ok line => exact .done (hline.mp ⟨line, hwrite⟩) () line
  | error f =>
    refine .stopped_quietly (fun h => ?_) f
    obtain ⟨line, hok⟩ := hline.mpr h
    cases hwrite.symm.trans hok

theorem print_prints (s : String) (d : Desk) :
    Prints (d.output.TakesAll s) d ((print s).on d) := by
  refine (printCodes_prints (codes s.toList) d).congr ?_
  unfold codes
  exact List.forall_mem_map

/-- ASCII text without control sequences is printed as it is. -/
theorem print_ascii {s : String} (hs : IsAscii s.toList) (hescape : '\x1b' ∉ s.toList) (d : Desk) :
    (print s).on d = (.ok (), { d with out := d.out ++ Utf8.encode (s.toList ++ ['\n']) }) := by
  have hplain : dropSequences (codes s.toList) = codes s.toList := by
    have hdrop := dropSequences_append hescape []
    rwa [List.append_nil, show dropSequences [] = [] from rfl, List.append_nil] at hdrop
  have hwrite := d.output.write_ascii (hs.append (by decide : IsAscii ['\n']))
  rw [show codes (s.toList ++ ['\n']) = codes s.toList ++ codes ['\n'] from List.map_append] at hwrite
  unfold print printCodes
  rw [Action.on_get_bind, hplain, hwrite]
  rfl

/-! ## Commands -/

def Loaded.told (loaded : Loaded) : List Char :=
  loaded.1.flatMap (fun w => CommandLine.told w.toList) ++ match loaded.2 with
    | .ok _ => loaded.1.flatMap fun w => CommandLine.told s!"Warning: {w}".toList
    | .error _ => []

theorem catalog_on (loaded : Loaded) (d : Desk) :
    (catalog loaded).on d = (loaded.2, { d with err := d.err ++ loaded.told }) := by
  have hfirst := tells_on (fun w => w) loaded.1 d
  unfold catalog
  rw [Action.on_bind_ok hfirst]
  cases hloaded : loaded.2 with
  | error e =>
    rw [Action.on_mk_bind_error rfl, Loaded.told, hloaded, List.append_nil]
  | ok c =>
    rw [Action.on_mk_bind_ok rfl, Action.on_bind_ok (tells_on _ loaded.1 _), Loaded.told, hloaded]
    simp only [List.append_assoc]
    rfl

section Commands
variable {loaded : Loaded} {transport : Transport} {job : JobChoice} {port : String}

theorem catalog_ok {f : Catalog → Action β} {c : Catalog} (h : loaded.2 = .ok c) :
    Action.on (catalog loaded >>= f) d = (f c).on { d with err := d.err ++ loaded.told } := by
  have hcatalog := catalog_on loaded d
  rw [h] at hcatalog
  exact Action.on_bind_ok hcatalog

theorem catalog_error {f : Catalog → Action β} {e : Failure} (h : loaded.2 = .error e) :
    Action.on (catalog loaded >>= f) d = (.error e, { d with err := d.err ++ loaded.told }) := by
  have hcatalog := catalog_on loaded d
  rw [h] at hcatalog
  exact Action.on_bind_error hcatalog

def shown (hex : Bool) (data : Bytes) : Bytes :=
  if hex then Utf8.encode (Hex.encode data ++ ['\n']) else data

inductive Encodes (loaded : Loaded) (job : JobChoice) (hex : Bool) (d : Desk) :
    Option PathName → Except Failure Nat × Desk → Prop
  | unloaded {output : Option PathName} {e : Failure} (h : loaded.2 = .error e) :
      Encodes loaded job hex d output (.error e, { d with err := d.err ++ loaded.told })
  | unrendered {output : Option PathName} {c : Catalog} {e : Failure} (hc : loaded.2 = .ok c)
      (h : c.renderFile d.world job.path job.profile job.setup = .error e) :
      Encodes loaded job hex d output (.error e, { d with err := d.err ++ loaded.told })
  | printed {c : Catalog} {data : Bytes} (hc : loaded.2 = .ok c)
      (h : c.renderFile d.world job.path job.profile job.setup = .ok data) :
      Encodes loaded job hex d none
        (.ok 0, { d with err := d.err ++ loaded.told, out := d.out ++ shown hex data })
  | unsaved {c : Catalog} {data : Bytes} {p : PathName} {problem : FileProblem}
      (hc : loaded.2 = .ok c)
      (h : c.renderFile d.world job.path job.profile job.setup = .ok data)
      (hw : d.world.write p (shown hex data) = .error problem) :
      Encodes loaded job hex d (some p)
        (.error (.file ⟨problem, p.text⟩), { d with err := d.err ++ loaded.told })
  | saved {c : Catalog} {data : Bytes} {p : PathName} {world : World} (hc : loaded.2 = .ok c)
      (h : c.renderFile d.world job.path job.profile job.setup = .ok data)
      (hw : d.world.write p (shown hex data) = .ok world) (more : List Char) :
      Encodes loaded job hex d (some p)
        (.ok 0, { d with world, err := d.err ++ loaded.told ++ more })

theorem writeFile_error {p : PathName} {data : Bytes} {problem : FileProblem}
    (h : d.world.write p data = .error problem) :
    (writeFile p data).on d = (.error (.file ⟨problem, p.text⟩), d) := by
  unfold writeFile
  rw [Action.on_get_bind, h]
  rfl

theorem writeFile_ok {p : PathName} {data : Bytes} {world : World}
    (h : d.world.write p data = .ok world) :
    ∃ more, (writeFile p data).on d = (.ok (), { d with world, err := d.err ++ more }) := by
  unfold writeFile
  rw [Action.on_get_bind, h]
  exact ⟨_, tell_on _ { d with world }⟩

theorem encode_goes (loaded : Loaded) (job : JobChoice) (output : Option PathName) (hex : Bool)
    (d : Desk) : Encodes loaded job hex d output ((encode loaded job output hex).on d) := by
  unfold encode
  cases hloaded : loaded.2 with
  | error e =>
    rw [catalog_error hloaded]
    exact .unloaded hloaded
  | ok c =>
    rw [catalog_ok hloaded, Action.on_get_bind]
    dsimp only
    cases hload : Job.load d.world job.path with
    | error e =>
      rw [Action.on_mk_bind_error rfl]
      exact .unrendered hloaded (Catalog.renderFile_unread hload)
    | ok commands =>
      rw [Action.on_mk_bind_ok rfl]
      cases hrender : c.render (.program (commands.map .command)) job.profile job.setup with
      | error e =>
        rw [Action.on_mk_bind_error rfl]
        exact .unrendered hloaded ((Catalog.renderFile_read hload).trans hrender)
      | ok data =>
        have hdata := (Catalog.renderFile_read hload).trans hrender
        rw [Action.on_mk_bind_ok rfl]
        cases output with
        | none => exact .printed hloaded hdata
        | some p =>
          change Encodes loaded job hex d (some p)
            (Action.on (writeFile p (shown hex data) >>= fun _ => pure 0) _)
          cases hw : d.world.write p (shown hex data) with
          | error problem =>
            have hwrite := writeFile_error (d := { d with err := d.err ++ loaded.told }) hw
            rw [Action.on_bind_error hwrite]
            exact .unsaved hloaded hdata hw
          | ok world =>
            obtain ⟨more, hwrite⟩ := writeFile_ok (d := { d with err := d.err ++ loaded.told }) hw
            rw [Action.on_bind_ok hwrite]
            exact .saved hloaded hdata hw more

inductive Plots (loaded : Loaded) (transport : Transport) (job : JobChoice) (port : String)
    (d : Desk) : Except Failure Nat × Desk → Prop
  | unloaded {e : Failure} (h : loaded.2 = .error e) :
      Plots loaded transport job port d (.error e, { d with err := d.err ++ loaded.told })
  | unread {c : Catalog} {e : Failure} (hc : loaded.2 = .ok c)
      (h : Job.load d.world job.path = .error e) :
      Plots loaded transport job port d (.error e, { d with err := d.err ++ loaded.told })
  | unsent {c : Catalog} {commands : List Command} {e : Failure} {line : Line}
      (hc : loaded.2 = .ok c) (hload : Job.load d.world job.path = .ok commands)
      (h : c.send transport (.program (commands.map .command)) job.profile job.setup { port } =
        (.error e, line)) :
      Plots loaded transport job port d (.error e, { d with err := d.err ++ loaded.told, line })
  | sent {c : Catalog} {commands : List Command} {sent : Sent} {line : Line}
      (hc : loaded.2 = .ok c) (hload : Job.load d.world job.path = .ok commands)
      (h : c.send transport (.program (commands.map .command)) job.profile job.setup { port } =
        (.ok sent, line)) (htakes : d.output.TakesAll (report sent)) (shown : Bytes) :
      Plots loaded transport job port d
        (.ok 0, { d with err := d.err ++ loaded.told, line, out := d.out ++ shown })
  | unreported {c : Catalog} {commands : List Command} {sent : Sent} {line : Line}
      (hc : loaded.2 = .ok c) (hload : Job.load d.world job.path = .ok commands)
      (h : c.send transport (.program (commands.map .command)) job.profile job.setup { port } =
        (.ok sent, line)) (htakes : ¬ d.output.TakesAll (report sent)) (f : Fault) (shown : Bytes) :
      Plots loaded transport job port d
        (.error (.fault f), { d with err := d.err ++ loaded.told, line, out := d.out ++ shown })

/-- Sending keeps the line also where it fails. -/
theorem send_on (c : Catalog) (transport : Transport) (program : Item) (job : JobChoice)
    (port : String) (d : Desk) :
    (send c transport program job port).on d =
      ((c.send transport program job.profile job.setup { port }).1,
        { d with line := (c.send transport program job.profile job.setup { port }).2 }) := rfl

theorem plot_goes (loaded : Loaded) (transport : Transport) (job : JobChoice) (port : String)
    (d : Desk) :
    Plots loaded transport job port d ((plot loaded transport job port).on d) := by
  unfold plot
  cases hloaded : loaded.2 with
  | error e =>
    rw [catalog_error hloaded]
    exact .unloaded hloaded
  | ok c =>
    rw [catalog_ok hloaded, Action.on_get_bind]
    dsimp only
    cases hload : Job.load d.world job.path with
    | error e =>
      rw [Action.on_mk_bind_error rfl]
      exact .unread hloaded hload
    | ok commands =>
      rw [Action.on_mk_bind_ok rfl]
      have hsend := send_on c transport (.program (commands.map .command)) job port
        { d with err := d.err ++ loaded.told }
      rcases hrun : c.send transport (.program (commands.map .command)) job.profile job.setup
        { port } with ⟨e | sent, line⟩
      · rw [hrun] at hsend
        rw [Action.on_bind_error hsend]
        exact .unsent hloaded hload hrun
      · rw [hrun] at hsend
        rw [Action.on_bind_ok hsend]
        have hprints := print_prints (report sent) { d with err := d.err ++ loaded.told, line }
        generalize hprint : (print (report sent)).on _ = printed at hprints
        cases hprints with
        | done htakes u shown =>
          rw [Action.on_bind_ok hprint]
          exact .sent hloaded hload hrun htakes shown
        | stopped htakes f shown =>
          rw [Action.on_bind_error hprint]
          exact .unreported hloaded hload hrun htakes f shown

end Commands

/-! ## Outcomes -/

def Outcome.failed (e : Failure) (d : Desk) : Outcome :=
  if e.declared then ⟨1, none, d.tell ("Error: ".toList ++ e.message.toList)⟩ else ⟨1, some e, d⟩

theorem Outcome.of_ok {a : Action Nat} {code : Nat} (h : a.on d = (.ok code, d')) :
    Outcome.of a d = ⟨code, none, d'⟩ := by
  have hrun : a.run.run d = (.ok code, d') := h
  unfold Outcome.of
  rw [hrun]

theorem Outcome.of_error {a : Action Nat} {e : Failure} (h : a.on d = (.error e, d')) :
    Outcome.of a d = .failed e d' := by
  have hrun : a.run.run d = (.error e, d') := h
  unfold Outcome.of
  rw [hrun]
  rfl

/-- What a failure leaves of a desk, but for the error output. -/
theorem Outcome.failed_desk (e : Failure) (d : Desk) :
    (failed e d).code = 1 ∧ (failed e d).desk.world = d.world ∧ (failed e d).desk.out = d.out := by
  unfold failed
  split
  · exact ⟨rfl, rfl, rfl⟩
  · exact ⟨rfl, rfl, rfl⟩

/-- Of the desk only the error output matters to how a failure is told. -/
theorem Outcome.failed_like (e : Failure) {d d' : Desk} (herr : d'.err = d.err) :
    (failed e d).code = 1 ∧ (failed e d').code = 1 ∧ (failed e d').escaped = (failed e d).escaped ∧
      (failed e d').desk.err = (failed e d).desk.err ∧ (failed e d').desk.out = d'.out ∧
      (failed e d').desk.line = d'.line := by
  unfold failed
  split
  · rw [d.tell_eq, d'.tell_eq, herr]
    exact ⟨rfl, rfl, rfl, rfl, rfl, rfl⟩
  · exact ⟨rfl, rfl, rfl, herr, rfl, rfl⟩

theorem outcome_of_request {arguments : List String} {r : Request} {world : World} {output : Output}
    (h : Request.ofArguments? arguments = some r) (loaded : Loaded) (transport : Transport) :
    outcome loaded transport arguments world output =
      Outcome.of (r.action loaded transport) { world, output } := by
  unfold outcome
  rw [h]

end PenPlotter.CommandLine
