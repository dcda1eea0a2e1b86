import PenPlotter.Proofs.CommandLine.Actions
import PenPlotter.Proofs.Service.Passed
/-! # Writing a job and sending it agree

A job that is written to the standard output goes to a willing device as the same bytes. A job that is not
written fails in the same way when it is to be sent, and before anything happens on the port: its profiles
and the job are read first, and rendering a job that was read for a profile that was loaded never fails.
-/
namespace PenPlotter
open Text

namespace Catalog
variable {files : List (String × String)} {c : Catalog} {id : Option String} {setup : Bool}

/-- What keeps a program from being rendered keeps it from being sent, whatever the device is. -/
theorem send_unrendered (hc : Reachable files c) {program : Item} (henc : program.Encodes)
    {e : Failure} (h : c.render program id setup = .error e) (script : DeviceScript) (port : String) :
    c.send (.serial script) program id setup { port } = (.error e, { port }) := by
  cases hp : c.resolve id with
  | error e' =>
    cases h.symm.trans (render_unresolved hp program setup)
    unfold send
    rw [hp]
  | ok p =>
    obtain ⟨datas, -, hrender⟩ := hc.exists_render hp henc setup
    cases h.symm.trans hrender

/-- A program that is rendered is sent to a willing device as that. -/
theorem send_rendered (hc : Reachable files c) {program : Item} (henc : program.Encodes)
    {out : Bytes} (h : c.render program id setup = .ok out) {script : DeviceScript}
    (hs : script.Willing) (port : String) :
    ∃ sent l, c.send (.serial script) program id setup { port } = (.ok sent, l) ∧
      takenBy l.calls = out ∧ Line.Served port l.events := by
  obtain ⟨p, hp, -⟩ := bind_eq_ok.mp h
  obtain ⟨sent, l, out', hsent, hrender, htaken, hserved⟩ := send_served hc hp henc setup hs port
  cases h.symm.trans hrender
  exact ⟨sent, l, hsent, htaken, hserved⟩

end Catalog

namespace CommandLine

variable {files : List (String × String)} {world : World} {loaded : Loaded} {job : JobChoice}
  {port : String} {script : DeviceScript}

/-- How sending a job ends at a desk, seen from how writing it ends there. -/
inductive Agree (loaded : Loaded) (job : JobChoice) (port : String) (world : World)
    (script : DeviceScript) : Except Failure Nat × Desk → Except Failure Nat × Desk → Prop
  | failed {e : Failure} {encoded plotted : Desk} (herr : plotted.err = encoded.err)
      (hout : plotted.out = []) (hevents : plotted.line.events = []) :
      Agree loaded job port world script (.error e, encoded) (.error e, plotted)
  | rendered {c : Catalog} {encoded : Desk} {plotted : Except Failure Nat × Desk}
      (hc : loaded.2 = .ok c)
      (hrender : c.renderFile world job.path job.profile job.setup = .ok encoded.out)
      (hserved : script.Willing → ∃ d, plotted = (.ok 0, d) ∧ takenBy d.line.calls = encoded.out ∧
        Line.Served port d.line.events) :
      Agree loaded job port world script (.ok 0, encoded) plotted

theorem actions_agree (hload : loaded = Catalog.load files world) :
    Agree loaded job port world script ((encode loaded job none false).on { world })
      ((plot loaded (.serial script) job port).on { world }) := by
  have hencode := encode_goes loaded job none false { world }
  have hplot := plot_goes loaded (.serial script) job port { world }
  generalize (encode loaded job none false).on { world } = encoded at hencode ⊢
  generalize (plot loaded (.serial script) job port).on { world } = plotted at hplot ⊢
  have hreached {c : Catalog} (hc : loaded.2 = .ok c) : Catalog.Reachable files c :=
    .loaded (hload ▸ hc)
  -- What was loaded is the same for both, and so is the job: only the profile is left to be found.
  cases hencode with
  | unloaded h =>
    cases hplot with
    | unloaded h' =>
      cases h.symm.trans h'
      exact .failed rfl rfl rfl
    | unread hc | unsent hc | sent hc | unreported hc => cases h.symm.trans hc
  | unrendered hc h =>
    have hunsent {cs : List Command} (hread : Job.load world job.path = .ok cs) :=
      Catalog.send_unrendered (hreached hc) (Job.load_encodes hread)
        ((Catalog.renderFile_read hread).symm.trans h) script port
    cases hplot with
    | unloaded h' => cases hc.symm.trans h'
    | unread hc' hread =>
      cases h.symm.trans (Catalog.renderFile_unread hread)
      exact .failed rfl rfl rfl
    | unsent hc' hread hsend =>
      cases hc.symm.trans hc'
      cases hsend.symm.trans (hunsent hread)
      exact .failed rfl rfl rfl
    | sent hc' hread hsend | unreported hc' hread hsend =>
      cases hc.symm.trans hc'
      cases hsend.symm.trans (hunsent hread)
  | printed hc h =>
    refine .rendered hc h fun hs => ?_
    have hsent {cs : List Command} (hread : Job.load world job.path = .ok cs) :=
      Catalog.send_rendered (hreached hc) (Job.load_encodes hread)
        ((Catalog.renderFile_read hread).symm.trans h) hs port
    cases hplot with
    | unloaded h' => cases hc.symm.trans h'
    | unread hc' hread => cases h.symm.trans (Catalog.renderFile_unread hread)
    | unsent hc' hread hsend =>
      cases hc.symm.trans hc'
      obtain ⟨sent, l, hsent, -⟩ := hsent hread
      cases hsend.symm.trans hsent
    | sent hc' hread hsend =>
      cases hc.symm.trans hc'
      obtain ⟨sent, l, hsent, htaken, hserved⟩ := hsent hread
      cases hsend.symm.trans hsent
      exact ⟨_, rfl, htaken, hserved⟩
    | unreported _ _ _ htakes => exact absurd (fun c _ => Output.utf8_takes c) htakes

def penWorld : World where
  entries := [(["pen.yaml"], .file (Utf8.encode "commands: [pen_up]".toList))]

end CommandLine
end PenPlotter
