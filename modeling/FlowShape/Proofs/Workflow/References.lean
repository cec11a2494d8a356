import FlowShape.Proofs.Reading.Origins
import FlowShape.Proofs.Workflow.Accounting

/-!
# Calls of other workflows

A workflow calls others by name: never itself, and never the functions that run a workflow on the
spot. A call is resolved if the file defines a workflow of that name, and a workflow warns of the
calls in it that are not.
-/

namespace FlowShape

namespace Flow

/-- What is to be warned of at a node. -/
def warning? : Flow → Option Warning
  | workflowRef tag ref =>
    if ref.resolved then none
    else some ⟨.unresolvedWorkflowRef,
      "`" ++ ref.workflowName ++ "` looks like a workflow but is not defined in this file",
      tag.location⟩
  | _ => none

/-- What is to be warned of in nodes, in the order of a walk. -/
def warnings (ns : List Flow) : List Warning := (ns.flatMap walk).filterMap warning?

@[simp] theorem warnings_nil : warnings [] = [] := rfl

@[simp] theorem warnings_append (ns ms : List Flow) :
    warnings (ns ++ ms) = warnings ns ++ warnings ms := by
  simp [warnings]

theorem warnings_singleton {f : Flow} (h : f.warning? = none) :
    warnings [f] = warnings f.children := by
  simp [warnings, walk_eq f, h]

theorem warnings_leaf (leaf : Leaf) (tag : Tag) :
    warnings [leaf.node tag] = leaf.warnings tag.location := by
  rw [warnings, List.flatMap_singleton, Leaf.walk_node]
  cases leaf with
  | workflowRef ref =>
    cases h : ref.resolved <;>
      simp [Leaf.node, warning?, Leaf.warnings, Warning.unresolvedWorkflowRef, h]
  | _ => rfl

theorem warnings_combinator (c : Combinator) (tag : Tag) (callee : String) (ns : List Flow) :
    warnings [c.node tag callee ns] = warnings ns := by
  cases c <;> exact warnings_singleton rfl

/-- Nothing is to be warned of where there is no work. -/
theorem warnings_of_not_hasWork {ns : List Flow} (h : !hasWork ns) : warnings ns = [] := by
  rw [warnings, List.filterMap_eq_nil_iff]
  intro f hf
  rw [hasWork_eq_any_walk, Bool.not_eq_true', List.any_eq_false] at h
  have hshape := h f hf
  cases f <;> simp_all [isCallShape, warning?]

end Flow

/-- Emission warns of the unresolved calls among the nodes that it emits, and of no others. -/
theorem Emits.warnings_eq {e : Emitter} {os : List Outline} {l m : Ledger} {ns : List Flow}
    (h : Emits e os l ns m) : m.warnings = l.warnings ++ Flow.warnings ns := by
  induction h with
  | nil => simp
  | append _ _ ih ih' => simp [ih, ih']
  | leaf origin leaf l => simp [Flow.warnings_leaf, Emitter.tagAt]
  | unreported => simp
  | join xs ys _ _ _ ih =>
    rw [Ledger.warnings_numbered, ih]
    have hjoin (tag : Tag) (ns : List Flow) :
        Flow.warnings [.sequence tag ns] = Flow.warnings ns := Flow.warnings_singleton rfl
    simp only [Flow.warnings_append, hjoin]
  | gather origin c callee name _ ih | enclose origin c callee name _ _ ih =>
    simpa [Flow.warnings_combinator] using ih
  | adopt origin c callee name _ hf ih =>
    obtain ⟨d, tag, callee, cs, rfl, rfl⟩ := Combinator.eq_node_of_adopt? hf
    simpa only [Flow.warnings_combinator] using ih
  | ifElse _ _ _ _ _ ih | guarded _ _ _ _ ih | ternary _ _ _ _ _ _ ih | switch _ _ _ _ _ ih
  | loop _ _ _ _ _ ih =>
    rw [Flow.warnings_singleton rfl]
    simpa [Flow.children] using ih
  | idleTernary origin condition _ hw ih =>
    rw [ih, Flow.warnings_of_not_hasWork (by simpa [Flow.hasWork_append] using hw)]
    rfl
  | idleSwitch origin expression _ hw ih =>
    rw [← Flow.hasWork_flatMap_body] at hw
    rw [ih, Flow.warnings_of_not_hasWork hw]
    rfl
  | idleLoop origin repetition _ hw ih =>
    rw [ih, Flow.warnings_of_not_hasWork hw]
    rfl

namespace Assembly

variable (a : Assembly) (entry : EntryPoint) (callback : Node) (used : Nat)

theorem warnings_eq_walk : (a.workflow entry callback used).1.metadata.warnings =
    (a.workflow entry callback used).1.walk.filterMap Flow.warning? :=
  (a.emitter.emits_body (a.outline entry callback) { used }).warnings_eq

theorem workflowName_context : (a.context entry callback).workflowName =
    some (a.workflowName entry) := by
  unfold context
  dsimp only
  split <;> rfl

/-- The rule for calls of other workflows applied to each of them. -/
theorem ref_of_mem_walk {tag : Tag} {ref : WorkflowRef}
    (h : .workflowRef tag ref ∈ (a.workflow entry callback used).1.walk) :
    ref.workflowName ≠ a.workflowName entry ∧ ref.workflowName ∉ a.bindings.runners ∧
      (ref.resolved ↔ ref.workflowName ∈ a.bindings.workflows) := by
  obtain ⟨call, shape, hclassified, hshape⟩ :=
    a.exists_classified entry callback used (.workflowRef ref) rfl h
  cases hshape
  cases hclassified with
  | workflowRef _ hown hrunners hresolved =>
    refine ⟨fun heq => hown ?_, hrunners, hresolved⟩
    rw [heq]
    exact a.workflowName_context entry callback

end Assembly

theorem Flow.code_of_warning? {f : Flow} {x : Warning} (h : f.warning? = some x) :
    x.code.name = "UNRESOLVED_WORKFLOW_REF" := by
  unfold warning? at h
  grind [WarningCode.name]

/-- A workflow calls neither itself nor a function that runs a workflow on the spot, and its calls
are resolved just if the file defines a workflow of that name. It warns of each call that is not
resolved, by its name and place and in the order of a walk, and of nothing else. -/
theorem Analysis.workflow_refs_are_resolved_by_name (options : Options) (now : Timestamp)
    (src : Source) (tree : Node) (used : Nat) (h : tree.label.flawed = false) :
    ∃ a after, Analysis.run options now src tree used = .ok (a, after) ∧
      ∀ w ∈ a.allWorkflows,
        (∀ tag ref, .workflowRef tag ref ∈ w.walk →
          ref.workflowName ≠ w.name ∧
          ref.workflowName ∉ (src.fileBindings tree options).runners ∧
          (ref.resolved ↔ ref.workflowName ∈ src.definitionNames tree)) ∧
        w.metadata.warnings = w.walk.filterMap Flow.warning? ∧
        ∀ x ∈ w.metadata.warnings, x.code.name = "UNRESOLVED_WORKFLOW_REF" := by
  refine Analysis.exists_run_forall h (fun w hw => hw) ?_
  intro entry _ callback before _
  let assembly := Assembly.ofFile options now src tree
  have hwarnings := assembly.warnings_eq_walk entry callback before
  refine ⟨fun tag ref href => assembly.ref_of_mem_walk entry callback before href, hwarnings, ?_⟩
  intro x hx
  rw [hwarnings] at hx
  obtain ⟨f, -, hf⟩ := List.mem_filterMap.1 hx
  exact Flow.code_of_warning? hf

/-- The second workflow calls one that is defined in the file and one that is not. -/
theorem Analysis.workflow_refs_are_resolved_by_name_several :
    Sample.severalTree.label.flawed = false ∧
      ∃ a after w tag ref, Analysis.run { assumeImported := true } ⟨0, 0, 0⟩ Sample.severalSource
          Sample.severalTree 0 = .ok (a, after) ∧ w ∈ a.allWorkflows ∧
        .workflowRef tag ref ∈ w.walk ∧ ref.workflowName ≠ w.name ∧
        (ref.resolved ↔ ref.workflowName ∈ Sample.severalSource.definitionNames
          Sample.severalTree) ∧
        w.metadata.warnings.length = 1 ∧
        w.metadata.warnings = w.walk.filterMap Flow.warning? := by
  have hrun : ((Analysis.run { assumeImported := true } ⟨0, 0, 0⟩ Sample.severalSource
      Sample.severalTree 0).toOption.map fun p => p.1.allWorkflows.map fun w =>
        (w.metadata.warnings.length, w.walk.map Flow.typeName)) =
      some [(0, ["step"]), (1, ["sequence", "workflow-ref", "workflow-ref"])] := by
    decide +kernel
  obtain ⟨a, after, h, hall⟩ := Analysis.workflow_refs_are_resolved_by_name
    { assumeImported := true } ⟨0, 0, 0⟩ Sample.severalSource Sample.severalTree 0 rfl
  rw [h] at hrun
  simp only [Except.toOption, Option.map_some, Option.some.injEq, List.map_eq_cons_iff,
    Prod.mk.injEq] at hrun
  obtain ⟨v, vs, hv, -, w, ws, hvs, ⟨hlength, sequence, fs, hwalk, -, f, gs, hfs, hf, -⟩, -⟩ := hrun
  have hmem : w ∈ a.allWorkflows := by simp [hv, hvs]
  have hmemf : f ∈ w.walk := by simp [hwalk, hfs]
  cases f with
  | workflowRef tag ref =>
    obtain ⟨hrefs, hwarnings, -⟩ := hall w hmem
    obtain ⟨hown, -, hresolved⟩ := hrefs tag ref hmemf
    exact ⟨rfl, a, after, w, tag, ref, h, hmem, hmemf, hown, hresolved, hlength, hwarnings⟩
  | _ => simp [Flow.typeName] at hf

end FlowShape
