import FlowShape.Proofs.Emission.Agreement
import FlowShape.Proofs.Emission.Rendering
import FlowShape.Proofs.Emission.Retention
import FlowShape.Proofs.Workflow.Accounting
import FlowShape.Proofs.Workflow.Relabeling

/-!
# Analyses with and without locations

Whether locations are asked for decides about all of them at once. With locations every root, every
warning and every node but a sequence has one, and without there is none anywhere. Nothing else in
an analysis depends on it.
-/

namespace FlowShape

namespace Analysis

/-- Whether everything in an analysis that comes from the source tells where it stands. The copies
of workflows kept under others are among the workflows looked at. -/
structure Located (a : Analysis) (placed : Bool) : Prop where
  references : ∀ w ∈ a.allWorkflows, ∀ p ∈ w.references, p.2 ∈ a.allWorkflows
  fileWarnings : ∀ x ∈ a.warnings, x.location.isSome = placed
  roots : ∀ w ∈ a.allWorkflows, w.root.location.isSome = placed
  warnings : ∀ w ∈ a.allWorkflows, ∀ x ∈ w.metadata.warnings, x.location.isSome = placed
  nodes : ∀ w ∈ a.allWorkflows, ∀ f ∈ w.walk, f.tag.location.isSome = (placed && !f.isSequence)

end Analysis

namespace Emitter

variable {e : Emitter}

theorem isSome_location (e : Emitter) (n : Node) :
    (e.location n).isSome = e.includeLocations := by
  cases h : e.includeLocations <;> simp [location, h]

theorem Renders.not_isSequence {o : Outline} {f : Flow} (h : e.Renders o f) :
    f.isSequence = false := by
  cases h with
  | leaf _ leaf _ => cases leaf <;> rfl
  | gather | enclose => apply Combinator.isSequence_node
  | _ => rfl

theorem isSome_location_of_mem_warnings {os : List Outline} {x : Warning}
    (h : x ∈ e.warnings os) : x.location.isSome = e.includeLocations := by
  obtain ⟨⟨n, leaf⟩, -, hx⟩ := List.mem_flatMap.1 h
  cases leaf with
  | workflowRef ref =>
    cases hr : ref.resolved <;>
      simp_all [Leaf.warnings, Warning.unresolvedWorkflowRef, isSome_location]
  | _ => cases hx

end Emitter

/-- A sequence joins nodes and has no place of its own. -/
theorem Flow.Joined.location {f : Flow} (h : f.Joined) :
    f.isSequence ∧ f.tag.location = none := by
  obtain ⟨id, cs, rfl, -⟩ := h
  exact ⟨rfl, rfl⟩

namespace Assembly

variable (a : Assembly) (entry : EntryPoint) (callback : Node) (used : Nat)

theorem isSome_location_of_mem_walk {f : Flow} (h : f ∈ (a.workflow entry callback used).1.walk) :
    f.tag.location.isSome = (a.options.includeLocations && !f.isSequence) := by
  have hemits := a.emitter.emits_body (a.outline entry callback) { used }
  rcases hemits.rendersAll f h with hjoined | ⟨o, -, p, -, hp⟩
  · obtain ⟨hsequence, hlocation⟩ := hjoined.location
    simp [hsequence, hlocation]
  · rw [hp.location, hp.not_isSequence, Emitter.isSome_location]
    simp [emitter]

/-- A workflow warns of the leaves of its outline. -/
theorem warnings_workflow : (a.workflow entry callback used).1.metadata.warnings =
    a.emitter.warnings (a.outline entry callback) :=
  (a.emitter.emits_body (a.outline entry callback) { used }).warnings

end Assembly

namespace Analysis

variable {options : Options} {now : Timestamp} {src : Source} {tree : Node} {used after : Nat}
  {a : Analysis}

/-- Workflows are kept under others one level deep. -/
theorem mem_allWorkflows_of_mem_references (h : tree.label.flawed = false)
    (hrun : run options now src tree used = .ok (a, after)) :
    ∀ w ∈ a.allWorkflows, ∀ p ∈ w.references, p.2 ∈ a.allWorkflows := by
  rw [run_of_not_flawed h rfl] at hrun
  cases hrun
  intro w hw p hp
  simp only [allWorkflows, List.mem_append, List.mem_flatMap, List.mem_map] at hw ⊢
  rcases hw with hw | ⟨v, hv, q, hq, rfl⟩
  · exact .inr ⟨w, hw, p, hp, rfl⟩
  · split at hv
    · obtain ⟨u, -, rfl⟩ := List.mem_map.1 hv
      obtain ⟨target, -, htarget⟩ := Workflow.mem_of_mem_referencesAmong hq
      rw [htarget] at hp
      cases hp
    · rw [← Assembly.bare_of_mem_assemble hv] at hq
      cases hq

theorem located (h : tree.label.flawed = false)
    (hrun : run options now src tree used = .ok (a, after)) :
    a.Located options.includeLocations := by
  obtain ⟨b, hrun', -, hall⟩ := exists_run_of_not_flawed h
    (rfl : (Assembly.ofFile options now src tree).assemble (src.entryPoints tree options) used = _)
  cases hrun.symm.trans hrun'
  constructor
  case references => exact mem_allWorkflows_of_mem_references h hrun
  case fileWarnings =>
    intro x hx
    rw [run_of_not_flawed h rfl] at hrun
    cases hrun
    obtain ⟨entry, -, -, rfl⟩ := Assembly.exists_of_mem_warnings hx
    apply Emitter.isSome_location
  -- a copy without what it keeps of others has the same root, warnings and nodes
  all_goals
    intro w hw
    obtain ⟨entry, -, callback, before, -, hbare⟩ := Assembly.exists_of_mem_assemble (hall w hw)
  case roots =>
    rw [show w.root = w.bare.root from rfl, hbare]
    apply Emitter.isSome_location
  case warnings =>
    intro x hx
    rw [show w.metadata = w.bare.metadata from rfl, hbare, Assembly.warnings_workflow] at hx
    exact Emitter.isSome_location_of_mem_warnings hx
  case nodes =>
    intro f hf
    rw [show w.walk = w.bare.walk from rfl, hbare] at hf
    exact Assembly.isSome_location_of_mem_walk _ _ _ _ hf

/-- Asking for no locations erases them and changes nothing else. -/
theorem locations_are_erased (options : Options) (now : Timestamp) (src : Source) (tree : Node)
    (used : Nat) (h : tree.label.flawed = false) :
    ∃ a after,
      run { options with includeLocations := true } now src tree used = .ok (a, after) ∧
      run { options with includeLocations := false } now src tree used =
        .ok (a.relabel .unplacing, after) ∧
      a.Located true ∧ (a.relabel .unplacing).Located false := by
  let assembly := Assembly.ofFile { options with includeLocations := true } now src tree
  obtain ⟨a, hon, -, -⟩ := exists_run_of_not_flawed h (rfl : assembly.assemble
    (src.entryPoints tree { options with includeLocations := true }) used = _)
  have hrelabels : assembly.Relabels .unplacing
      (Assembly.ofFile { options with includeLocations := false } now src tree) :=
    ⟨rfl, rfl, rfl, { location := fun _ => rfl, reportUnknown := rfl }⟩
  have hoff := run_relabel hrelabels rfl rfl used
  rw [hon] at hoff
  exact ⟨a, _, hon, hoff, located h hon, located h hoff⟩

/-- A run of two workflows, of which one is defined in the file and kept under the run. -/
theorem locations_are_erased_several :
    Sample.severalTree.label.flawed = false ∧
      ∃ a after,
        run { assumeImported := true, resolveReferences := true } ⟨0, 0, 0⟩ Sample.severalSource
          Sample.severalTree 0 = .ok (a, after) ∧
        run { assumeImported := true, resolveReferences := true, includeLocations := false }
          ⟨0, 0, 0⟩ Sample.severalSource Sample.severalTree 0 =
            .ok (a.relabel .unplacing, after) ∧
        a.allWorkflows.map (fun w => (w.walk.map Flow.typeName, w.metadata.warnings.length)) =
          [(["step"], 0), (["sequence", "workflow-ref", "workflow-ref"], 1), (["step"], 0)] ∧
        a.warnings.length = 1 ∧ a.Located true ∧ (a.relabel .unplacing).Located false := by
  have hon : ((run { assumeImported := true, resolveReferences := true } ⟨0, 0, 0⟩
      Sample.severalSource Sample.severalTree 0).toOption.map fun p =>
        (p.1.allWorkflows.map (fun w => (w.walk.map Flow.typeName, w.metadata.warnings.length)),
          p.1.warnings.length)) =
      some ([(["step"], 0), (["sequence", "workflow-ref", "workflow-ref"], 1), (["step"], 0)],
        1) := by
    decide +kernel
  obtain ⟨a, after, ha, hoff, hplaced, hunplaced⟩ := locations_are_erased
    { assumeImported := true, resolveReferences := true } ⟨0, 0, 0⟩ Sample.severalSource
    Sample.severalTree 0 rfl
  rw [ha] at hon
  obtain ⟨hnodes, hlength⟩ := Prod.mk.inj (Option.some.inj hon)
  exact ⟨rfl, a, after, ha, hoff, hnodes, hlength, hplaced, hunplaced⟩

end Analysis

end FlowShape
