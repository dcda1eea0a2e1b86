import PenPlotter.Proofs.Yaml.Flaw
import PenPlotter.Yaml.Node
/-! # Events and nodes add no faults

From tokens to events, and from events to nodes, a text can only turn out to be malformed, or have more
collections within each other than there is room for. A fault of the tokens is handed on as it is, at
the place where the tokens end.
-/
namespace PenPlotter.Yaml

namespace EventReader

variable {r : EventReader} {φ : Flaw}

/-- What a reader with a flaw behind its tokens yields: that flaw and no other fault, and a reader with
it. -/
abbrev Passes (φ : Flaw) (x : Result) : Prop :=
  Yields (fun f => φ = .fault f) (fun p => p.2.flaw = φ) x

theorem flaw_yields {α : Type} {Q : α → Prop} (φ : Flaw) :
    Yields (fun f => φ = .fault f) Q (.error φ) := by
  cases φ with
  | malformed stage => exact .malformed
  | duplicateKey key mark => exact .duplicate
  | fault f => exact .fault rfl

theorem peek_yields (hr : r.flaw = φ) :
    Yields (fun f => φ = .fault f) (fun _ => True) r.peek := by
  unfold peek
  split
  · exact .ok trivial
  · rw [hr]
    exact flaw_yields φ

theorem next_flaw (hr : r.flaw = φ) : r.next.flaw = φ := hr

theorem waitFor_flaw (hr : r.flaw = φ) (s : Expected) : (r.waitFor s).flaw = φ := hr

theorem sees_yields (hr : r.flaw = φ) (kinds : List TokenKind) :
    Yields (fun f => φ = .fault f) (fun _ => True) (r.sees kinds) :=
  (peek_yields hr).bind fun _ _ => .ok trivial

theorem done_passes (hr : r.flaw = φ) (e : Event) : Passes φ (pure (r.done e)) := by
  refine .ok ?_
  unfold done
  split <;> exact hr

theorem expand_yields (handle : Option (List Char)) (suffix : List Char) :
    Yields (fun f => φ = .fault f) (fun _ => True) (r.expand handle suffix) := by
  unfold expand
  split
  · exact .ok trivial
  · split
    · exact .ok trivial
    · exact .malformed

theorem properties_yields (hr : r.flaw = φ) :
    Yields (fun f => φ = .fault f) (fun p => p.2.2.flaw = φ) r.properties := by
  unfold properties
  refine (peek_yields hr).bind fun first _ => ?_
  dsimp only
  split
  · refine (peek_yields (next_flaw hr)).bind fun t _ => ?_
    split
    · exact (expand_yields _ _).bind fun _ _ => .ok hr
    · exact .ok hr
  · refine (peek_yields (next_flaw hr)).bind fun t _ => ?_
    split
    · exact (expand_yields _ _).bind fun _ _ => .ok hr
    · exact (expand_yields _ _).bind fun _ _ => .ok hr
  · exact .ok hr

theorem empty_passes (hr : r.flaw = φ) (p : Properties) (start : Option Mark) :
    Passes φ (node.empty r p start) := by
  unfold node.empty
  split
  · exact done_passes hr _
  · exact .malformed

theorem node_passes (hr : r.flaw = φ) (block indentless : Bool) :
    Passes φ (r.node block indentless) := by
  unfold node
  refine (peek_yields hr).bind fun t _ => ?_
  split
  · exact done_passes (next_flaw hr) _
  · refine (properties_yields hr).bind fun ⟨p, start, r⟩ hp => ?_
    refine (peek_yields hp).bind fun t _ => ?_
    dsimp only
    split
    · split
      · exact .ok hp
      · exact empty_passes hp p start
    · exact done_passes (next_flaw hp) _
    · exact .ok hp
    · exact .ok hp
    · split
      · exact .ok hp
      · exact empty_passes hp p start
    · split
      · exact .ok hp
      · exact empty_passes hp p start
    · exact empty_passes hp p start

theorem nodeUnless_passes (hr : r.flaw = φ) (kinds : List TokenKind) (next : Expected) (mark : Mark)
    (block indentless : Bool) : Passes φ (r.nodeUnless kinds next mark block indentless) := by
  unfold nodeUnless
  refine (sees_yields hr kinds).bind fun seen _ => ?_
  split
  · exact .ok hr
  · exact node_passes (waitFor_flaw hr next) block indentless

theorem directives_yields (tokens : List Token) (versioned : Bool)
    (handles : List (List Char × List Char)) :
    Yields (fun f => φ = .fault f) (fun _ => True) (directives tokens φ versioned handles) := by
  induction tokens generalizing versioned handles with
  | nil =>
    rw [directives]
    exact flaw_yields φ
  | cons t rest ih =>
    rw [directives]
    split
    · split
      · exact .malformed
      · exact ih true handles
    · split
      · exact .malformed
      · exact ih versioned _
    · exact ih versioned handles
    · exact .ok trivial

theorem explicitDocument_passes (hr : r.flaw = φ) : Passes φ r.explicitDocument := by
  unfold explicitDocument
  dsimp only
  refine (sees_yields (by exact hr) [.streamEnd]).bind fun ended _ => ?_
  split
  · exact .ok hr
  · rw [hr]
    refine (directives_yields _ _ _).bind fun ⟨tokens, handles⟩ _ => ?_
    refine (sees_yields (by rfl) [.documentStart]).bind fun started _ => ?_
    split
    · exact .malformed
    · exact .ok rfl

theorem firstDocument_passes (hr : r.flaw = φ) : Passes φ r.firstDocument := by
  unfold firstDocument
  refine (peek_yields hr).bind fun t _ => ?_
  split
  · exact explicitDocument_passes hr
  · exact .ok hr

theorem documentContent_passes (hr : r.flaw = φ) : Passes φ r.documentContent := by
  unfold documentContent
  refine (peek_yields hr).bind fun t _ => ?_
  split
  · exact done_passes hr _
  · exact node_passes hr true false

theorem documentEnd_passes (hr : r.flaw = φ) : Passes φ r.documentEnd := by
  unfold documentEnd
  refine (peek_yields hr).bind fun t _ => .ok ?_
  dsimp only
  split <;> exact hr

theorem blockEntry_passes (hr : r.flaw = φ) : Passes φ r.blockEntry := by
  unfold blockEntry
  refine (peek_yields hr).bind fun t _ => ?_
  split
  · exact nodeUnless_passes (next_flaw hr) _ _ _ _ _
  · exact done_passes (next_flaw hr) _
  · exact .malformed

theorem indentlessEntry_passes (hr : r.flaw = φ) : Passes φ r.indentlessEntry := by
  unfold indentlessEntry
  refine (peek_yields hr).bind fun t _ => ?_
  split
  · exact nodeUnless_passes (next_flaw hr) _ _ _ _ _
  · exact done_passes hr _

theorem blockKey_passes (hr : r.flaw = φ) : Passes φ r.blockKey := by
  unfold blockKey
  refine (peek_yields hr).bind fun t _ => ?_
  split
  · exact nodeUnless_passes (next_flaw hr) _ _ _ _ _
  · exact done_passes (next_flaw hr) _
  · exact .malformed

theorem blockValue_passes (hr : r.flaw = φ) : Passes φ r.blockValue := by
  unfold blockValue
  refine (peek_yields hr).bind fun t _ => ?_
  split
  · exact nodeUnless_passes (next_flaw hr) _ _ _ _ _
  · exact .ok hr

theorem comma_yields (hr : r.flaw = φ) (first : Bool) :
    Yields (fun f => φ = .fault f) (fun r' => r'.flaw = φ) (r.comma first) := by
  unfold comma
  split
  · exact .ok hr
  · refine (sees_yields hr [.flowEntry]).bind fun seen _ => ?_
    split
    · exact .ok hr
    · exact .malformed

theorem flowEntry_passes (hr : r.flaw = φ) (first : Bool) : Passes φ (r.flowEntry first) := by
  unfold flowEntry
  refine (peek_yields hr).bind fun t _ => ?_
  split
  · exact done_passes (next_flaw hr) _
  · refine (comma_yields hr first).bind fun r' hr' => ?_
    refine (peek_yields hr').bind fun t _ => ?_
    split
    · exact .ok hr'
    · exact done_passes (next_flaw hr') _
    · exact node_passes (waitFor_flaw hr' _) false false

theorem pairKey_passes (hr : r.flaw = φ) : Passes φ r.pairKey := by
  unfold pairKey
  exact (peek_yields hr).bind fun t _ => nodeUnless_passes (next_flaw hr) _ _ _ _ _

theorem pairValue_passes (hr : r.flaw = φ) : Passes φ r.pairValue := by
  unfold pairValue
  refine (peek_yields hr).bind fun t _ => ?_
  split
  · exact nodeUnless_passes (next_flaw hr) _ _ _ _ _
  · exact .ok hr

theorem pairEnd_passes (hr : r.flaw = φ) : Passes φ r.pairEnd := by
  unfold pairEnd
  exact (peek_yields hr).bind fun t _ => .ok hr

theorem flowKey_passes (hr : r.flaw = φ) (first : Bool) : Passes φ (r.flowKey first) := by
  unfold flowKey
  refine (peek_yields hr).bind fun t _ => ?_
  split
  · exact done_passes (next_flaw hr) _
  · refine (comma_yields hr first).bind fun r' hr' => ?_
    refine (peek_yields hr').bind fun t _ => ?_
    split
    · exact nodeUnless_passes (next_flaw hr') _ _ _ _ _
    · exact done_passes (next_flaw hr') _
    · exact node_passes (waitFor_flaw hr' _) false false

theorem flowValue_passes (hr : r.flaw = φ) : Passes φ r.flowValue := by
  unfold flowValue
  refine (peek_yields hr).bind fun t _ => ?_
  split
  · exact nodeUnless_passes (next_flaw hr) _ _ _ _ _
  · exact .ok hr

theorem flowEmptyValue_passes (hr : r.flaw = φ) : Passes φ r.flowEmptyValue := by
  unfold flowEmptyValue
  exact (peek_yields hr).bind fun t _ => .ok hr

theorem read_passes (hr : r.flaw = φ) : Passes φ r.read := by
  unfold read
  split
  · exact firstDocument_passes hr
  · exact explicitDocument_passes hr
  · exact documentContent_passes hr
  · exact documentEnd_passes hr
  · exact node_passes hr true false
  · exact blockEntry_passes hr
  · exact indentlessEntry_passes hr
  · exact blockKey_passes hr
  · exact blockValue_passes hr
  · exact flowEntry_passes hr _
  · exact pairKey_passes hr
  · exact pairValue_passes hr
  · exact pairEnd_passes hr
  · exact flowKey_passes hr _
  · exact flowValue_passes hr
  · exact flowEmptyValue_passes hr

theorem readAll_fault {fuel : Nat} {out : List Event} (hr : r.flaw = φ) {f : Fault}
    (h : (readAll fuel out r).2 = some (.fault f)) : φ = .fault f := by
  induction fuel generalizing out r with
  | zero => cases h
  | succ fuel ih =>
    have hpasses := read_passes hr
    rw [readAll] at h
    generalize r.read = result at h hpasses
    cases hpasses with
    | @ok next hnext =>
      rcases next with ⟨e, r'⟩
      cases e with
      | streamEnd => cases h
      | _ => exact ih hnext h
    | malformed => cases h
    | duplicate => cases h
    | fault hf =>
      cases h
      exact hf

end EventReader

/-- A fault of the events is one of the tokens. -/
theorem events_fault {ts : List Token × Option Flaw} {f : Fault}
    (h : (events ts).2 = some (.fault f)) : ts.2 = some (.fault f) := by
  have hflaw : ts.2.getD (.malformed .events) = .fault f := EventReader.readAll_fault rfl h
  cases hts : ts.2 with
  | none =>
    rw [hts] at hflaw
    cases hflaw
  | some flaw =>
    rw [hts] at hflaw
    exact congrArg some hflaw

namespace NodeReader
variable {r : NodeReader}

/-- How many collections are open behind an event, with `n` open in front of it. -/
def openAfter (n : Nat) : Event → Nat
  | .sequenceStart .. | .mappingStart .. => n + 1
  | .sequenceEnd | .mappingEnd => n - 1
  | _ => n

theorem length_add (r : NodeReader) (n : Nat) :
    (r.add n).openNodes.length = r.openNodes.length := by
  unfold add
  split
  next h => rw [h]
  next h => simp [h]
  next h => simp [h]
  next h => simp [h]

theorem length_close (r : NodeReader) : r.close.openNodes.length = r.openNodes.length - 1 := by
  unfold close
  split
  next h => simp [h]
  next h => simp [length_add, h]
  next h => simp [length_add, h]

theorem declare_yields (anchor : Option (List Char)) (node : Node) :
    Yields (fun _ => False) (fun p => p.2.openNodes = r.openNodes) (r.declare anchor node) := by
  unfold declare
  dsimp only
  split
  · exact .ok rfl
  · split
    · exact .malformed
    · exact .ok rfl

abbrev Opens (n : Nat) (x : Except Flaw NodeReader) : Prop :=
  Yields (fun f => f = .tooDeep "" ∧ callRoom < 2 * n) (fun r => r.openNodes.length = n) x

theorem declare_opens {n : Nat} {anchor : Option (List Char)} {node : Node}
    {f : Nat × NodeReader → Except Flaw NodeReader}
    (hf : ∀ p, p.2.openNodes = r.openNodes → Opens n (f p)) :
    Opens n (r.declare anchor node >>= f) :=
  ((declare_yields anchor node).mono fun _ h => h.elim).bind hf

theorem enter_opens (r : NodeReader) (node : OpenNode) :
    Opens (r.openNodes.length + 1) (r.enter node) := by
  unfold enter
  split
  next => exact .ok rfl
  next hroom => exact .fault ⟨rfl, by omega⟩

theorem step_opens (e : Event) : Opens (openAfter r.openNodes.length e) (r.step e) := by
  cases e with
  | «alias» name =>
    dsimp only [step]
    split
    · exact .ok (length_add _ _)
    · exact .malformed
  | scalar p isPlain text mark =>
    exact declare_opens fun q hq => .ok ((length_add _ _).trans (congrArg List.length hq))
  | sequenceStart p mark =>
    refine declare_opens fun q hq => ?_
    rw [← hq]
    exact enter_opens q.2 _
  | mappingStart p mark =>
    refine declare_opens fun q hq => ?_
    rw [← hq]
    exact enter_opens q.2 _
  | sequenceEnd => exact .ok (length_close r)
  | mappingEnd => exact .ok (length_close r)
  | documentStart => exact .ite .malformed (.ok rfl)
  | documentEnd => exact .ok rfl
  | streamEnd => exact .ok rfl

theorem run_fault {flaw : Option Flaw} {es : List Event} {f : Fault}
    (h : run flaw es r = .error (.fault f)) : flaw = some (.fault f) ∨
      f = .tooDeep "" ∧
        ∃ before, before <+: es ∧ callRoom < 2 * before.foldl openAfter r.openNodes.length := by
  induction es generalizing r with
  | nil =>
    cases flaw with
    | none => cases h
    | some e =>
      cases h
      exact .inl rfl
  | cons e es ih =>
    have hstep : Opens (openAfter r.openNodes.length e) (r.step e) := step_opens e
    rw [run] at h
    generalize r.step e = result at h hstep
    cases hstep with
    | ok hopen =>
      refine (ih h).imp_right fun ⟨hf, before, hbefore, hdeep⟩ => ?_
      exact ⟨hf, e :: before, List.cons_prefix_cons.mpr ⟨rfl, hbefore⟩, by
        rwa [List.foldl_cons, ← hopen]⟩
    | malformed => cases h
    | duplicate => cases h
    | fault hf =>
      cases h
      exact .inr ⟨hf.1, [e], List.cons_prefix_cons.mpr ⟨rfl, List.nil_prefix⟩, hf.2⟩

end NodeReader

/-- At some place more collections are open than there is room for. -/
def Overfull (es : List Event) : Prop :=
  ∃ before, before <+: es ∧ callRoom < 2 * before.foldl NodeReader.openAfter 0

/-- A fault of the nodes is one of the events, or they are too many within each other. -/
theorem node?_fault {es : List Event × Option Flaw} {f : Fault}
    (h : node? es = .error (.fault f)) :
    es.2 = some (.fault f) ∨ f = .tooDeep "" ∧ Overfull es.1 := by
  unfold node? at h
  cases hrun : NodeReader.run es.2 es.1 {} with
  | ok r =>
    rw [hrun] at h
    cases h
  | error e =>
    rw [hrun] at h
    cases h
    exact NodeReader.run_fault hrun

end PenPlotter.Yaml
