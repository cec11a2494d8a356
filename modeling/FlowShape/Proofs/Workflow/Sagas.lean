import FlowShape.Proofs.Emission.Sagas
import FlowShape.Proofs.Reading.Origins
import FlowShape.Proofs.Tree.Builder

/-!
# Sagas and plain workflows

A plain workflow has no saga steps. A saga has no streams, and the only other steps in it are the
branches of combinators that are no calls of a known shape.
-/

namespace FlowShape

namespace Workflow

/-- The rules for the steps of a saga: no streams, and a step has nothing set for it and is always
the direct child of a combinator. -/
structure IsSaga (w : Workflow) : Prop where
  noStream : ∀ f ∈ w.walk, f.typeName ≠ "stream"
  implicit : ∀ tag s, .step tag s ∈ w.walk →
    tag.key = none ∧ s.retry = none ∧ s.timeout = none ∧ s.description = none ∧ s.markdown = none
  parent : ∀ f ∈ w.walk, f.typeName = "step" →
    ∃ p ∈ w.walk, p.typeName ∈ ["parallel", "race"] ∧ f ∈ p.children
  nowhereElse : (∀ f ∈ w.root.children, f.typeName ≠ "step") ∧
    ∀ p ∈ w.walk, ∀ f ∈ p.children, f.typeName = "step" → p.typeName ∈ ["parallel", "race"]

theorem IsSaga.of_bare {w : Workflow} (h : w.bare.IsSaga) : w.IsSaga :=
  ⟨h.noStream, h.implicit, h.parent, h.nowhereElse⟩

theorem isSaga_of_forall {w : Workflow} (h : ∀ f ∈ w.root.children, f.OfSaga) : w.IsSaga := by
  have hkeeps : ∀ f ∈ w.walk, f.KeepsToSaga := by
    intro f hf
    obtain ⟨c, hc, hf⟩ := List.mem_flatMap.1 hf
    exact (h c hc).keepsToSaga.2 f hf
  have hroot : ∀ f ∈ w.root.children, f.typeName ≠ "step" := fun f hf => (h f hf).keepsToSaga.1
  refine ⟨fun f hf => (hkeeps f hf).noStream, fun tag s hs => (hkeeps _ hs).implicit rfl, ?_,
    hroot, fun p hp => (hkeeps p hp).branches⟩
  intro f hf hstep
  obtain ⟨c, hc, hf⟩ := List.mem_flatMap.1 hf
  rcases Flow.eq_or_exists_parent hf with rfl | ⟨p, hp, hchild⟩
  · exact absurd hstep (hroot f hc)
  · have hmem : p ∈ w.walk := List.mem_flatMap.2 ⟨c, hc, hp⟩
    exact ⟨p, hmem, (hkeeps p hmem).branches f hchild hstep, hchild⟩

end Workflow

namespace Assembly

variable (a : Assembly) (entry : EntryPoint) (callback : Node) (used : Nat)

/-- The callback of a saga binds no step function. -/
theorem step_context (h : entry.kind.isSaga) : (a.context entry callback).step = none := by
  simp [context, h]

theorem saga_context (h : entry.kind.isSaga = false) :
    (a.context entry callback).saga = none := by
  simp [context, h]

theorem isSaga_workflow (h : entry.kind.isSaga) :
    (a.workflow entry callback used).1.IsSaga := by
  have houtline : ∀ o ∈ a.outline entry callback, o.OfSaga :=
    (Reader.readsSaga (a.step_context entry callback h) callback).callback
  exact Workflow.isSaga_of_forall
    (Emitter.emitsSaga_body (a.emitter.emitsSaga_outlines houtline) { used })

theorem not_sagaStep_of_mem_walk (h : entry.kind.isSaga = false) {f : Flow}
    (hf : f ∈ (a.workflow entry callback used).1.walk) : f.typeName ≠ "saga-step" := by
  cases f with
  | sagaStep tag s =>
    obtain ⟨call, shape, hclassified, tryStep, rfl⟩ :=
      a.exists_classified entry callback used (.sagaStep none none s) rfl hf
    cases hclassified with
    | sagaStep hbinding _ => cases (a.saga_context entry callback h).symm.trans hbinding
  | _ => simp [Flow.typeName]

end Assembly

/-- Sagas and plain workflows do not mix: a plain workflow has no saga step, and a saga has no
stream and no step but the branches of combinators that are steps for want of another meaning. -/
theorem Analysis.sagas_do_not_mix (options : Options) (now : Timestamp) (src : Source)
    (tree : Node) (used : Nat) (h : tree.label.flawed = false) :
    ∃ a after, Analysis.run options now src tree used = .ok (a, after) ∧
      ∀ w ∈ a.allWorkflows,
        (w.root.source ∈ [.createWorkflow, .run] → ∀ f ∈ w.walk, f.typeName ≠ "saga-step") ∧
        (w.root.source ∈ [.createSagaWorkflow, .runSaga] → w.IsSaga) := by
  refine Analysis.exists_run_forall h
    (fun w hw => ⟨hw.1, fun hsource => (hw.2 hsource).of_bare⟩) ?_
  intro entry _ callback before _
  let assembly := Assembly.ofFile options now src tree
  have hsource : (assembly.workflow entry callback before).1.root.source = entry.kind := rfl
  constructor
  · intro hplain f hf
    refine assembly.not_sagaStep_of_mem_walk entry callback before ?_ hf
    grind [EntryKind.isSaga]
  · intro hsaga
    refine assembly.isSaga_workflow entry callback before ?_
    grind [EntryKind.isSaga]

namespace Sample

def sagaSource : Source :=
  .ofString "sample.ts" ("\n".intercalate
    ["run((step) => step(q));",
     "runSaga((saga) => \x7b",
     "  saga.step(q);",
     "  allAsync([f(q)]);",
     "\x7d);",
     ""])

def sagaTree : Node :=
  part .program 0 84 [
    callStatement 0 (stepFunction 4 (stepCall 14)),
    callStatement 24 (stepFunction 32 (part .statementBlock 42 81 [
      token "\x7b" 42,
      part .expressionStatement 46 59 [
        part .callExpression 46 58 [
          role .function .memberExpression 46 55 [
            role .object .identifier 46 50 [], token "." 50,
            role .property (.other "property_identifier") 51 55 []],
          role .arguments .arguments 55 58 [
            token "(" 55, part .identifier 56 57 [], token ")" 57]],
        token ";" 58],
      callStatement 62 (part .array 71 77 [
        token "[" 71,
        part .callExpression 72 76 [
          role .function .identifier 72 73 [],
          role .arguments .arguments 73 76 [
            token "(" 73, part .identifier 74 75 [], token ")" 75]],
        token "]" 76]),
      token "\x7d" 80]))]

end Sample

/-- A plain workflow of one step, and a saga with a step of its own and one in a combinator. -/
theorem Analysis.sagas_do_not_mix_saga :
    Sample.sagaTree.label.flawed = false ∧
      ∃ a after v w, Analysis.run { assumeImported := true } ⟨0, 0, 0⟩ Sample.sagaSource
          Sample.sagaTree 0 = .ok (a, after) ∧ v ∈ a.allWorkflows ∧ w ∈ a.allWorkflows ∧
        v.root.source = .run ∧ v.walk.map Flow.typeName = ["step"] ∧
        (∀ f ∈ v.walk, f.typeName ≠ "saga-step") ∧
        w.root.source = .runSaga ∧
        w.walk.map Flow.typeName = ["sequence", "saga-step", "parallel", "step"] ∧ w.IsSaga := by
  have hrun : ((Analysis.run { assumeImported := true } ⟨0, 0, 0⟩ Sample.sagaSource
      Sample.sagaTree 0).toOption.map fun p => p.1.allWorkflows.map fun w =>
        (w.root.source, w.walk.map Flow.typeName)) =
      some [(.run, ["step"]), (.runSaga, ["sequence", "saga-step", "parallel", "step"])] := by
    decide +kernel
  obtain ⟨a, after, h, hall⟩ := Analysis.sagas_do_not_mix { assumeImported := true } ⟨0, 0, 0⟩
    Sample.sagaSource Sample.sagaTree 0 rfl
  rw [h] at hrun
  simp only [Except.toOption, Option.map_some, Option.some.injEq] at hrun
  obtain ⟨v, vs, hv, hvdata, hrest⟩ := List.map_eq_cons_iff.1 hrun
  obtain ⟨w, ws, hw, hwdata, -⟩ := List.map_eq_cons_iff.1 hrest
  obtain ⟨hvsource, hvwalk⟩ := Prod.mk.inj hvdata
  obtain ⟨hwsource, hwwalk⟩ := Prod.mk.inj hwdata
  have hvmem : v ∈ a.allWorkflows := by simp [hv]
  have hwmem : w ∈ a.allWorkflows := by simp [hv, hw]
  exact ⟨rfl, a, after, v, w, h, hvmem, hwmem, hvsource, hvwalk,
    (hall v hvmem).1 (by simp [hvsource]), hwsource, hwwalk, (hall w hwmem).2 (by simp [hwsource])⟩

end FlowShape
