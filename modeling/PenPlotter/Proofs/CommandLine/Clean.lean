import PenPlotter.Proofs.CommandLine.Listing
import PenPlotter.Proofs.CommandLine.Stray
import PenPlotter.Proofs.Service.Passed
/-! # How requests end

A request is done, or it fails with a line of text, or there are no profiles to list. It ends otherwise just
where a failure is met that is not announced: in loading the profiles, in reading the job, in printing a
profile or what was sent, in writing the output, and on a line whose device takes nothing of a write without
an error. What can be printed is up to the standard output.
-/
namespace PenPlotter
open Text

namespace Catalog
variable {files : List (String × String)} {c : Catalog} {w : World} {path : PathName}
  {id : Option String} {setup : Bool}

theorem resolve_declared {e : Failure} (h : c.resolve id = .error e) : e.declared = true := by
  rw [(resolve_eq_error.mp h).2]
  rfl

/-- Rendering a program that can be rendered fails only for want of the profile. -/
theorem render_not_stray (hc : Reachable files c) {program : Item} (henc : program.Encodes) :
    ¬ Stray (c.render program id setup) := by
  cases hp : c.resolve id with
  | ok p =>
    obtain ⟨datas, -, hrender⟩ := hc.exists_render hp henc setup
    rw [hrender]
    exact not_stray_ok _
  | error e =>
    rw [render_unresolved hp]
    intro h
    have hdeclared := resolve_declared hp
    simp [stray_error.mp h] at hdeclared

theorem renderFile_stray_iff (hc : Reachable files c) :
    Stray (c.renderFile w path id setup) ↔ Job.Strays w path := by
  unfold renderFile
  rw [stray_bind, ← Job.load_stray_iff]
  exact or_iff_left fun ⟨cs, hcs, h⟩ => render_not_stray hc (Job.load_encodes hcs) h

/-- Sending over a line with ordinary errors strays where the device takes nothing of a write. -/
theorem send_stray_iff (hc : Reachable files c) {program : Item} (henc : program.Encodes)
    {script : DeviceScript} (hs : script.Ordinary) {port : String} {result : Except Failure Sent}
    {line : Line} (hrun : c.send (.serial script) program id setup { port } = (result, line)) :
    Stray result ↔ ¬ ∀ call ∈ line.calls, call.Progresses := by
  cases hp : c.resolve id with
  | error e =>
    have hsend : c.send (.serial script) program id setup { port } = (.error e, { port }) := by
      unfold send
      rw [hp]
    cases hsend.symm.trans hrun
    rw [stray_error, resolve_declared hp]
    exact iff_of_false Bool.noConfusion (not_not_intro nofun)
  | ok p =>
    have hconveyed : Conveyed _ ↔ _ := send_conveyed hc hp henc setup hs port false
    rw [hrun] at hconveyed
    rw [← hconveyed]
    constructor
    · rintro ⟨e, rfl, he⟩ hall
      obtain ⟨t, rfl⟩ := hall e rfl
      cases he
    · intro h
      cases result with
      | ok sent => exact absurd (conveyed_ok sent) h
      | error e =>
        have hundelivered : Undelivered e := send_undelivered hc hp henc setup hs hrun
        cases hundelivered with
        | transport t => exact absurd (fun _ heq => ⟨t, (Except.error.inj heq).symm⟩) h
        | stalled pending => exact ⟨_, rfl, rfl⟩

end Catalog

namespace CommandLine

/-! ## Lines of text -/

inductive HasLine (start : List Char) : List Char → Prop
  | first (rest : List Char) : HasLine start (start ++ rest)
  | later (before rest : List Char) : HasLine start (before ++ '\n' :: (start ++ rest))

def Lines (s : List Char) : Prop := s = [] ∨ ∃ line, s = line ++ ['\n']

theorem Lines.append {s t : List Char} (hs : Lines s) (ht : Lines t) : Lines (s ++ t) := by
  rcases ht with rfl | ⟨line, rfl⟩
  · rwa [List.append_nil]
  · exact .inr ⟨s ++ line, (List.append_assoc ..).symm⟩

theorem Lines.flatMap {α : Type} {f : α → List Char} (hf : ∀ a, Lines (f a)) (as : List α) :
    Lines (as.flatMap f) := by
  induction as with
  | nil => exact .inl rfl
  | cons a as ih => exact (hf a).append ih

theorem Lines.hasLine {s : List Char} (hs : Lines s) (start rest : List Char) :
    HasLine start (s ++ (start ++ rest)) := by
  rcases hs with rfl | ⟨line, rfl⟩
  · exact .first rest
  · rw [List.append_assoc]
    exact .later line rest

theorem told_lines (s : List Char) : Lines (told s) := .inr ⟨_, rfl⟩

theorem Loaded.told_lines (loaded : Loaded) : Lines loaded.told := by
  unfold Loaded.told
  refine (Lines.flatMap (fun _ => CommandLine.told_lines _) _).append ?_
  split
  · exact Lines.flatMap (fun _ => CommandLine.told_lines _) _
  · exact .inl rfl

theorem told_append {s : List Char} (hs : '\x1b' ∉ s) (rest : List Char) :
    told (s ++ rest) = s ++ told rest := by
  have hplain : escapeHalves (codes s) = s := by
    simp [escapeHalves, codes, List.flatMap_map]
  have hcodes : codes (s ++ rest) = codes s ++ codes rest := List.map_append
  unfold told
  rw [hcodes, dropSequences_append hs, ← List.append_assoc]
  congr 1
  unfold escapeHalves at hplain ⊢
  rw [List.flatMap_append, hplain]

/-! ## Clean ends -/

/-- A request ends cleanly if it is done, or fails with a line that tells why, or lists no profiles. -/
inductive Outcome.Clean (o : Outcome) : Prop
  | done (hescaped : o.escaped = none) (hcode : o.code = 0)
  | announced (hescaped : o.escaped = none) (hcode : o.code = 1)
      (herr : HasLine "Error: ".toList o.desk.err)
  | empty (hescaped : o.escaped = none) (hcode : o.code = 1)
      (hout : o.desk.out = Utf8.encode "No profiles loaded\n".toList)

theorem Outcome.Clean.escaped {o : Outcome} (h : o.Clean) : o.escaped = none := by
  cases h <;> assumption

variable {d : Desk} {a : Action Nat} {e : Failure}

theorem Outcome.failed_clean_iff (hd : Lines d.err) : (failed e d).Clean ↔ e.declared = true := by
  unfold failed
  split
  next h =>
    refine iff_of_true (.announced rfl rfl ?_) h
    rw [d.tell_eq, told_append (by decide)]
    exact hd.hasLine _ _
  next h =>
    refine iff_of_false (fun hclean => ?_) h
    cases hclean.escaped

inductive Orderly : Except Failure Nat × Desk → Prop
  | done (d : Desk) : Orderly (.ok 0, d)
  | empty {d : Desk} (hout : d.out = Utf8.encode "No profiles loaded\n".toList) : Orderly (.ok 1, d)
  | failed {e : Failure} {d : Desk} (herr : Lines d.err) : Orderly (.error e, d)

theorem Outcome.of_clean_iff (h : Orderly (a.on d)) :
    (Outcome.of a d).Clean ↔ ¬ Stray (a.on d).1 := by
  generalize hrun : a.on d = run at h
  cases h with
  | done d' =>
    rw [Outcome.of_ok hrun]
    exact iff_of_true (.done rfl rfl) (not_stray_ok 0)
  | empty hout =>
    rw [Outcome.of_ok hrun]
    exact iff_of_true (.empty rfl rfl hout) (not_stray_ok 1)
  | failed herr => rw [Outcome.of_error hrun, failed_clean_iff herr, stray_error, Bool.not_eq_false]

/-! ## What strays -/

def packagedEntries (files : List (String × String)) : List (String × Entry) :=
  files.map fun f => (f.1, .file (Utf8.encode f.2.toList))

/-- What keeps a request from ending cleanly; `line` is what happened on the port. -/
inductive Strays (files : List (String × String)) (world : World) (script : DeviceScript)
    (output : Output) (line : Line) : Request → Prop
  | unloaded {r : Request} (hr : r ≠ .help)
      (h : Catalog.Strays (packagedEntries files) world) : Strays files world script output line r
  | unlisted {c : Catalog} (hc : (Catalog.load files world).2 = .ok c) {p : Profile} (hp : p ∈ c)
      (h : ¬ Listable output p) : Strays files world script output line .profiles
  | unencoded {c : Catalog} (hc : (Catalog.load files world).2 = .ok c) {job : JobChoice}
      {file : Option PathName} {hex : Bool} (h : Job.Strays world job.path) :
      Strays files world script output line (.encode job file hex)
  | unwritten {c : Catalog} (hc : (Catalog.load files world).2 = .ok c) {job : JobChoice}
      {file : PathName} {hex : Bool} {data : Bytes} {problem : FileProblem}
      (hdata : c.renderFile world job.path job.profile job.setup = .ok data)
      (h : world.write file (shown hex data) = .error problem) :
      Strays files world script output line (.encode job (some file) hex)
  | unsent {c : Catalog} (hc : (Catalog.load files world).2 = .ok c) {job : JobChoice} {port : String}
      (h : Job.Strays world job.path) : Strays files world script output line (.plot job port)
  | stalled {job : JobChoice} {port : String} {call : Call} (hcall : call ∈ line.calls) {n : ℤ}
      (hanswer : call.answer = .ok (some n)) (hn : n ≤ 0) :
      Strays files world script output line (.plot job port)
  | unreported {c : Catalog} (hc : (Catalog.load files world).2 = .ok c) {job : JobChoice}
      {port : String} {commands : List Command} (hload : Job.load world job.path = .ok commands)
      {sent : Sent} {l : Line}
      (hsent : c.send (.serial script) (.program (commands.map .command)) job.profile job.setup
        { port } = (.ok sent, l))
      (h : ¬ output.TakesAll (report sent)) : Strays files world script output line (.plot job port)

section
variable {files : List (String × String)} {world : World} {script : DeviceScript} {output : Output}
  {line : Line} {c : Catalog} {job : JobChoice} {file : Option PathName} {hex : Bool} {port : String}

theorem load_stray_iff :
    Stray (Catalog.load files world).2 ↔ Catalog.Strays (packagedEntries files) world :=
  Catalog.loadFrom_stray_iff

theorem strays_of_unloaded {r : Request} {e : Failure} (h : (Catalog.load files world).2 = .error e)
    (hr : r ≠ .help) (hline : line.calls = []) :
    Strays files world script output line r ↔ e.declared = false := by
  rw [← stray_error (α := Catalog), ← h, load_stray_iff]
  refine ⟨fun hs => ?_, .unloaded hr⟩
  cases hs with
  | unloaded _ hs => exact hs
  | stalled hcall =>
    rw [hline] at hcall
    cases hcall
  | unlisted hc | unencoded hc | unwritten hc | unsent hc | unreported hc => cases h.symm.trans hc

theorem not_unloaded (hc : (Catalog.load files world).2 = .ok c) :
    ¬ Catalog.Strays (packagedEntries files) world := by
  rw [← load_stray_iff, hc]
  exact not_stray_ok c

theorem strays_profiles_iff (hc : (Catalog.load files world).2 = .ok c) :
    Strays files world script output line .profiles ↔
      ¬ ∀ p ∈ c, Listable output p := by
  constructor
  · rintro (⟨-, h⟩ | ⟨hc', hp, h⟩) hall
    · exact not_unloaded hc h
    · cases hc.symm.trans hc'
      exact h (hall _ hp)
  · intro h
    simp only [not_forall] at h
    obtain ⟨p, hp, hlistable⟩ := h
    exact .unlisted hc hp hlistable

theorem strays_encode_iff (hc : (Catalog.load files world).2 = .ok c) :
    Strays files world script output line (.encode job file hex) ↔ Job.Strays world job.path ∨
      ∃ p data problem, file = some p ∧
        c.renderFile world job.path job.profile job.setup = .ok data ∧
        world.write p (shown hex data) = .error problem := by
  constructor
  · intro hs
    cases hs with
    | unloaded _ h => exact absurd h (not_unloaded hc)
    | unencoded _ h => exact .inl h
    | unwritten hc' hdata h =>
      cases hc.symm.trans hc'
      exact .inr ⟨_, _, _, rfl, hdata, h⟩
  · rintro (h | ⟨p, data, problem, rfl, hdata, h⟩)
    · exact .unencoded hc h
    · exact .unwritten hc hdata h

theorem strays_plot_iff (hc : (Catalog.load files world).2 = .ok c) :
    Strays files world script output line (.plot job port) ↔
      Job.Strays world job.path ∨ (¬ ∀ call ∈ line.calls, call.Progresses) ∨
        ∃ commands sent l, Job.load world job.path = .ok commands ∧
          c.send (.serial script) (.program (commands.map .command)) job.profile job.setup { port } =
            (.ok sent, l) ∧ ¬ output.TakesAll (report sent) := by
  constructor
  · intro hs
    cases hs with
    | unloaded _ h => exact absurd h (not_unloaded hc)
    | unsent _ h => exact .inl h
    | stalled hcall hanswer hn => exact .inr (.inl fun hall => not_lt.mpr hn (hall _ hcall _ hanswer))
    | unreported hc' hload hsent h =>
      cases hc.symm.trans hc'
      exact .inr (.inr ⟨_, _, _, hload, hsent, h⟩)
  · rintro (h | h | ⟨commands, sent, l, hload, hsent, h⟩)
    · exact .unsent hc h
    · simp only [Call.Progresses, not_forall, not_lt] at h
      obtain ⟨call, hcall, n, hanswer, hn⟩ := h
      exact .stalled hcall hanswer hn
    · exact .unreported hc hload hsent h

/-! ## The commands -/

structure Accounted (files : List (String × String)) (world : World) (script : DeviceScript)
    (output : Output) (r : Request) (run : Except Failure Nat × Desk) : Prop where
  orderly : Orderly run
  stray_iff : Stray run.1 ↔ Strays files world script output run.2.line r

theorem accounted_unloaded {r : Request} {e : Failure} {d : Desk}
    (h : (Catalog.load files world).2 = .error e) (hr : r ≠ .help) (herr : Lines d.err)
    (hline : d.line.calls = []) : Accounted files world script output r (.error e, d) :=
  ⟨.failed herr, stray_error.trans (strays_of_unloaded h hr hline).symm⟩

theorem profiles_accounted :
    Accounted files world script output .profiles
      ((profiles (Catalog.load files world)).on { world, output }) := by
  have hlines := Loaded.told_lines (Catalog.load files world)
  have hlists := profiles_lists (Catalog.load files world) (fun c hc p hp => by
    obtain ⟨source, doc, hbuild⟩ := Catalog.load_built hc p hp
    exact Profile.plain_of_build hbuild) { world, output }
  generalize (profiles (Catalog.load files world)).on { world, output } = run at hlists
  cases hlists with
  | unloaded h => exact accounted_unloaded h nofun hlines rfl
  | empty h =>
    refine ⟨.empty rfl, iff_of_false (not_stray_ok 1) ?_⟩
    rw [strays_profiles_iff h]
    exact not_not_intro nofun
  | listed hc h lines =>
    refine ⟨.done _, iff_of_false (not_stray_ok 0) ?_⟩
    rw [strays_profiles_iff hc]
    exact not_not_intro h
  | stopped hc h f lines => exact ⟨.failed hlines, iff_of_true ⟨_, rfl, rfl⟩ ((strays_profiles_iff hc).mpr h)⟩

theorem encode_accounted :
    Accounted files world script output (.encode job file hex)
      ((encode (Catalog.load files world) job file hex).on { world, output }) := by
  have hlines := Loaded.told_lines (Catalog.load files world)
  have hencodes := encode_goes (Catalog.load files world) job file hex { world, output }
  have hrender {c : Catalog} (hc : (Catalog.load files world).2 = .ok c) :
      Stray (c.renderFile world job.path job.profile job.setup) ↔ Job.Strays world job.path :=
    Catalog.renderFile_stray_iff (.loaded hc)
  generalize (encode (Catalog.load files world) job file hex).on { world, output } = run at hencodes
  cases hencodes with
  | unloaded h => exact accounted_unloaded h nofun hlines rfl
  | unrendered hc h =>
    refine ⟨.failed hlines, stray_error.trans ?_⟩
    rw [strays_encode_iff hc, ← hrender hc, h, stray_error]
    exact (or_iff_left (by rintro ⟨_, _, _, -, hdata, -⟩; cases hdata)).symm
  | printed hc h =>
    refine ⟨.done _, iff_of_false (not_stray_ok 0) ?_⟩
    rw [strays_encode_iff hc, ← hrender hc, h]
    rintro (hs | ⟨p, -, -, hp, -⟩)
    · exact not_stray_ok _ hs
    · cases hp
  | unsaved hc h hw =>
    exact ⟨.failed hlines, iff_of_true ⟨_, rfl, rfl⟩
      ((strays_encode_iff hc).mpr (.inr ⟨_, _, _, rfl, h, hw⟩))⟩
  | saved hc h hw more =>
    refine ⟨.done _, iff_of_false (not_stray_ok 0) ?_⟩
    rw [strays_encode_iff hc, ← hrender hc, h]
    rintro (hs | ⟨p, data, problem, hp, hdata, hproblem⟩)
    · exact not_stray_ok _ hs
    · cases hp
      cases hdata
      cases hw.symm.trans hproblem

theorem plot_accounted (hs : script.Ordinary) :
    Accounted files world script output (.plot job port)
      ((plot (Catalog.load files world) (.serial script) job port).on { world, output }) := by
  have hlines := Loaded.told_lines (Catalog.load files world)
  have hplots := plot_goes (Catalog.load files world) (.serial script) job port { world, output }
  generalize (plot (Catalog.load files world) (.serial script) job port).on { world, output } = run at hplots
  have hsend {c : Catalog} {commands : List Command} {result : Except Failure Sent} {line : Line}
      (hc : (Catalog.load files world).2 = .ok c) (hload : Job.load world job.path = .ok commands)
      (hrun : c.send (.serial script) (.program (commands.map .command)) job.profile job.setup { port } =
        (result, line)) : Strays files world script output line (.plot job port) ↔
      Stray result ∨ ∃ sent, result = .ok sent ∧ ¬ output.TakesAll (report sent) := by
    have hstray := Catalog.send_stray_iff (.loaded hc) (Job.load_encodes hload) hs hrun
    have hread : ¬ Job.Strays world job.path := by
      rw [← Job.load_stray_iff, hload]
      exact not_stray_ok commands
    rw [strays_plot_iff hc, or_iff_right hread, ← hstray]
    refine or_congr_right ⟨?_, ?_⟩
    · rintro ⟨commands', sent, l, hload', hsent, h⟩
      cases hload.symm.trans hload'
      cases hrun.symm.trans hsent
      exact ⟨sent, rfl, h⟩
    · rintro ⟨sent, rfl, h⟩
      exact ⟨commands, sent, line, hload, hrun, h⟩
  cases hplots with
  | unloaded h => exact accounted_unloaded h nofun hlines rfl
  | unread hc h =>
    refine ⟨.failed hlines, stray_error.trans ?_⟩
    rw [strays_plot_iff hc, ← Job.load_stray_iff, h, stray_error]
    refine (or_iff_left ?_).symm
    rintro (hidle | ⟨commands, _, _, hload, -⟩)
    · exact hidle nofun
    · cases hload
  | unsent hc hload h =>
    refine ⟨.failed hlines, ?_⟩
    rw [hsend hc hload h]
    exact stray_error.trans (stray_error.symm.trans (or_iff_left nofun).symm)
  | @sent c commands sent line hc hload h htakes shown =>
    refine ⟨.done _, iff_of_false (not_stray_ok 0) ?_⟩
    rw [hsend hc hload h]
    rintro (hstray | ⟨sent', hsent, hnot⟩)
    · exact not_stray_ok sent hstray
    · cases hsent
      exact hnot htakes
  | unreported hc hload h htakes f shown =>
    exact ⟨.failed hlines, iff_of_true ⟨_, rfl, rfl⟩ ((hsend hc hload h).mpr (.inr ⟨_, rfl, htakes⟩))⟩

/-- The usage is ASCII, so every output takes it. -/
theorem help_accounted {transport : Transport} :
    Accounted files world script output .help
      ((Request.action (Catalog.load files world) transport .help).on { world, output }) := by
  have hplain : IsAscii usage.toList ∧ '\x1b' ∉ usage.toList := by
    simp only [usage, String.toList_intercalate, String.reduceToList]
    decide +kernel
  refine ⟨?_, ?_⟩
  · rw [Request.action, Action.on_bind_ok (print_ascii hplain.1 hplain.2 _)]
    exact .done _
  · rw [Request.action, Action.on_bind_ok (print_ascii hplain.1 hplain.2 _)]
    refine iff_of_false (not_stray_ok 0) ?_
    rintro ⟨hr, -⟩
    exact hr rfl

theorem action_accounted (hs : script.Ordinary) (r : Request) :
    Accounted files world script output r
      ((r.action (Catalog.load files world) (.serial script)).on { world, output }) := by
  cases r with
  | help => exact help_accounted
  | profiles => exact profiles_accounted
  | encode job file hex => exact encode_accounted
  | plot job port => exact plot_accounted hs

end

theorem Outcome.of_line {a : Action Nat} {d : Desk} :
    (Outcome.of a d).desk.line = (a.on d).2.line := by
  rcases hrun : a.on d with ⟨e | code, d'⟩
  · rw [Outcome.of_error hrun]
    exact (Outcome.failed_like e rfl).2.2.2.2.2
  · rw [Outcome.of_ok hrun]

/-- Every request with a device of ordinary errors ends cleanly, whatever the standard output writes, unless
something strays: a file among the profiles or the folders of the user, the job, a profile that is to be
listed, the output that is to be written, a write of which the device takes nothing, or the report. -/
theorem outcome_clean_iff (files : List (String × String)) (world : World) {arguments : List String}
    {r : Request} (hr : Request.ofArguments? arguments = some r) {script : DeviceScript}
    (hs : script.Ordinary) (output : Output) :
    let o := outcome (Catalog.load files world) (.serial script) arguments world output
    o.Clean ↔ ¬ Strays files world script output o.desk.line r := by
  intro o
  have ho : o = Outcome.of (r.action (Catalog.load files world) (.serial script)) { world, output } :=
    outcome_of_request hr _ _
  have haccounted : Accounted files world script output r
      ((r.action (Catalog.load files world) (.serial script)).on { world, output }) :=
    action_accounted hs r
  rw [ho, Outcome.of_line, ← haccounted.stray_iff]
  exact Outcome.of_clean_iff haccounted.orderly

/-- A device that lets the first write time out: the failure is told. -/
theorem outcome_clean_iff_timeout :
    let files := [Catalog.tinyFile]
    let world : World := { entries := [(["pen.yaml"], .file (Utf8.encode "commands: [pen_up]".toList))] }
    let arguments := ["plot", "--profile", "tiny", "--port", "line", "pen.yaml"]
    let r : Request := .plot ⟨.ofText "pen.yaml", some "tiny", true⟩ "line"
    let script : DeviceScript := { replies := [.error ⟨.lineTimeout, ""⟩] }
    let o := outcome (Catalog.load files world) (.serial script) arguments world
    Request.ofArguments? arguments = some r ∧ script.Ordinary ∧ o.code = 1 ∧ o.escaped = none ∧
      (o.Clean ↔ ¬ Strays files world script .utf8 o.desk.line r) := by
  intro files world arguments r script o
  have hr : Request.ofArguments? arguments = some r := by decide +kernel
  have hs : script.Ordinary :=
    ⟨nofun, List.forall_mem_singleton.mpr (by rintro e ⟨⟩; rfl), nofun⟩
  have ho : o.code = 1 ∧ o.escaped = none := by decide +kernel
  exact ⟨hr, hs, ho.1, ho.2, outcome_clean_iff files world hr hs .utf8⟩

/-- A job file of one byte that begins no character. -/
theorem outcome_unclean_bytes :
    let world : World := { entries := [(["job.yaml"], .file [0xff])] }
    let arguments := ["encode", "job.yaml"]
    let script : DeviceScript := {}
    (Request.ofArguments? arguments).isSome = true ∧ script.Ordinary ∧
      ¬ (outcome (Catalog.load [Catalog.tinyFile] world) (.serial script) arguments world).Clean := by
  intro world arguments script
  have hr : (Request.ofArguments? arguments).isSome = true := by decide +kernel
  have hs : script.Ordinary := ⟨nofun, nofun, nofun⟩
  have hescaped : (outcome (Catalog.load [Catalog.tinyFile] world) (.serial script) arguments
      world).escaped = some (.fault (.undecodable ⟨.start, 0xff, 0, 1⟩)) := by
    decide +kernel
  refine ⟨hr, hs, fun hclean => ?_⟩
  cases hescaped.symm.trans hclean.escaped

end CommandLine

end PenPlotter
