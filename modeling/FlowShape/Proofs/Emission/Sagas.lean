import FlowShape.Proofs.Emission.Derivation
import FlowShape.Proofs.Reading.Sagas

/-!
# Emission of sagas

The outlines of a saga are emitted as nodes without streams. A step among them stands right below a
combinator and has nothing set for it.
-/

namespace FlowShape

namespace Flow

/-- A step with nothing set for it. -/
def IsImplicitStep : Flow → Prop
  | step tag s =>
    tag.key = none ∧ s.retry = none ∧ s.timeout = none ∧ s.description = none ∧ s.markdown = none
  | _ => False

def isControl : Flow → Bool
  | sequence .. | conditional .. | switch .. | loop .. => true
  | _ => false

/-- The nodes that a saga is made of. -/
inductive OfSaga : Flow → Prop
  | leaf {leaf : Leaf} {tag : Tag} : leaf.isOfSaga → OfSaga (leaf.node tag)
  | combinator {c : Combinator} {tag : Tag} {callee : String} {ns : List Flow} :
      (∀ f ∈ ns, ¬f.IsImplicitStep → OfSaga f) → OfSaga (c.node tag callee ns)
  | control {f : Flow} : f.isControl → (∀ c ∈ f.children, OfSaga c) → OfSaga f

/-- The rules for a node of a saga and for what stands right below it. -/
structure KeepsToSaga (f : Flow) : Prop where
  noStream : f.typeName ≠ "stream"
  implicit : f.typeName = "step" → f.IsImplicitStep
  branches : ∀ c ∈ f.children, c.typeName = "step" → f.typeName ∈ ["parallel", "race"]

variable {f g : Flow}

theorem IsImplicitStep.walk_eq (h : f.IsImplicitStep) : f.walk = [f] := by
  cases f with
  | step => exact Flow.walk_eq _
  | _ => cases h

theorem IsImplicitStep.keepsToSaga (h : f.IsImplicitStep) : f.KeepsToSaga := by
  cases f with
  | step => exact ⟨by simp [typeName], fun _ => h, nofun⟩
  | _ => cases h

/-- No node of a saga is a step in its own right, and all nodes below it keep the rules. -/
theorem OfSaga.keepsToSaga (h : f.OfSaga) :
    f.typeName ≠ "step" ∧ ∀ g ∈ f.walk, g.KeepsToSaga := by
  induction h with
  | @leaf leaf tag hleaf =>
    have hrules : (leaf.node tag).typeName ≠ "step" ∧ (leaf.node tag).KeepsToSaga := by
      cases leaf with
      | step | stream => cases hleaf
      | _ => exact ⟨by simp [Leaf.node, typeName],
          by simp [Leaf.node, typeName], by simp [Leaf.node, typeName], nofun⟩
    exact ⟨hrules.1, by simpa using hrules.2⟩
  | @combinator c tag callee ns _ ih =>
    have hname : (c.node tag callee ns).typeName ∈ ["parallel", "race"] := by
      cases c <;> simp [Combinator.node, typeName]
    refine ⟨by grind, ?_⟩
    intro g hg
    rw [Combinator.walk_node] at hg
    rcases List.mem_cons.1 hg with rfl | hg
    · exact ⟨by grind, by grind, fun _ _ _ => hname⟩
    · obtain ⟨d, hd, hg⟩ := List.mem_flatMap.1 hg
      by_cases himplicit : d.IsImplicitStep
      · rw [himplicit.walk_eq, List.mem_singleton] at hg
        exact hg ▸ himplicit.keepsToSaga
      · exact (ih d hd himplicit).2 g hg
  | @control f hcontrol _ ih =>
    have hname : f.typeName ≠ "step" ∧ f.typeName ≠ "stream" := by
      cases f <;> simp_all [isControl, typeName]
    refine ⟨hname.1, ?_⟩
    intro g hg
    rw [walk_eq] at hg
    rcases List.mem_cons.1 hg with rfl | hg
    · exact ⟨hname.2, by grind, fun c hc hstep => absurd hstep (ih c hc).1⟩
    · obtain ⟨d, hd, hg⟩ := List.mem_flatMap.1 hg
      exact (ih d hd).2 g hg

/-- A walk meets a node at its start or right below another. -/
theorem eq_or_exists_parent (h : g ∈ f.walk) : g = f ∨ ∃ p ∈ f.walk, g ∈ p.children := by
  induction f using childrenInduction with
  | h f ih =>
    rw [walk_eq] at h ⊢
    rcases List.mem_cons.1 h with rfl | h
    · exact .inl rfl
    · obtain ⟨c, hc, hg⟩ := List.mem_flatMap.1 h
      rcases ih c hc hg with rfl | ⟨p, hp, hg⟩
      · exact .inr ⟨f, List.mem_cons_self, hc⟩
      · exact .inr ⟨p, List.mem_cons_of_mem _ (List.mem_flatMap.2 ⟨c, hc, hp⟩), hg⟩

end Flow

/-! ## Emission -/

theorem Outline.OfSaga.of_inside {o : Outline} (h : o.OfSaga) (hcontrol : o.isControl) :
    ∀ p ∈ o.inside, p.OfSaga := by
  cases h with
  | leaf | gather => cases hcontrol
  | control _ hinside => exact hinside

namespace Emitter

variable (e : Emitter)

/-- A run emits nodes of a saga only. -/
def EmitsSaga (x : Emit (List Flow)) : Prop := ∀ l : Ledger, ∀ f ∈ (x.run l).1, f.OfSaga

variable {e}

theorem emitsSaga_compose {ns : List Flow} (h : ∀ f ∈ ns, f.OfSaga) :
    EmitsSaga (Emit.compose ns) := by
  intro l
  rw [Emit.run_compose]
  split
  · exact List.forall_mem_singleton.2 (.control rfl h)
  · exact h

theorem emitsSaga_body {os : List Outline} (h : EmitsSaga (e.outlines os)) :
    EmitsSaga (e.body os) :=
  fun l => emitsSaga_compose (h l) _

theorem emitsSaga_leaf {origin : Node} {leaf : Leaf} (h : leaf.isOfSaga) :
    EmitsSaga (e.outline (.leaf origin leaf)) := by
  intro l
  rw [outline, run_leaf]
  split
  · simp
  · exact List.forall_mem_singleton.2 (.leaf h)

theorem emitsSaga_ternary {os ps : List Outline} (h : EmitsSaga (e.outlines os))
    (h' : EmitsSaga (e.outlines ps)) (origin : Node) (condition : String) :
    EmitsSaga (e.outline (.ternary origin condition os ps)) := by
  intro l
  rw [run_ternary]
  dsimp only
  split
  · refine List.forall_mem_singleton.2 (.control rfl (List.forall_mem_append.2 ⟨?_, ?_⟩))
    · exact emitsSaga_compose (h l) _
    · exact emitsSaga_compose (h' _) _
  · simp

theorem emitsSaga_switch {cases : List (Case Outline)}
    (h : ∀ l, ∀ f ∈ ((e.cases cases).run l).1.flatMap Case.body, f.OfSaga) (origin : Node)
    (expression : String) : EmitsSaga (e.outline (.switch origin expression cases)) := by
  intro l
  rw [run_switch]
  dsimp only
  split
  · exact List.forall_mem_singleton.2 (.control rfl (h l))
  · simp

theorem emitsSaga_loop {os : List Outline} (h : EmitsSaga (e.outlines os)) (origin : Node)
    (repetition : Repetition) : EmitsSaga (e.outline (.loop origin repetition os)) := by
  intro l
  rw [run_loop]
  dsimp only
  split
  · exact List.forall_mem_singleton.2 (.control rfl (emitsSaga_body h l))
  · simp

/-- A branch that is a step takes its place as it is. -/
theorem emitsSaga_branch {branch : List Outline}
    (h : ¬Outline.IsImplicitBranch branch → EmitsSaga (e.outlines branch)) (l : Ledger) :
    ∀ f ∈ ((e.body branch).run l).1, ¬f.IsImplicitStep → f.OfSaga := by
  by_cases hbranch : Outline.IsImplicitBranch branch
  · obtain ⟨origin, name, callee, rfl⟩ := hbranch
    intro f hf himplicit
    obtain rfl := List.mem_singleton.1 hf
    exact absurd ⟨rfl, rfl, rfl, rfl, rfl⟩ himplicit
  · exact fun f hf _ => emitsSaga_body (h hbranch) l f hf

/-- The branches of a combinator give nodes of a saga, implicit steps apart. -/
def BranchesEmitSaga (e : Emitter) (branches : List (List Outline)) : Prop :=
  (∀ branch ∈ branches, ¬Outline.IsImplicitBranch branch → ∀ o ∈ branch, o.OfSaga) →
    ∀ l, ∀ f ∈ ((e.branches branches).run l).1, ¬f.IsImplicitStep → f.OfSaga

/-- The cases of a switch give nodes of a saga. -/
def CasesEmitSaga (e : Emitter) (cases : List (Case Outline)) : Prop :=
  (∀ o ∈ cases.flatMap Case.body, o.OfSaga) →
    ∀ l, ∀ f ∈ ((e.cases cases).run l).1.flatMap Case.body, f.OfSaga

theorem emitsSaga_outlines (e : Emitter) {os : List Outline} (h : ∀ o ∈ os, o.OfSaga) :
    EmitsSaga (e.outlines os) := by
  induction os using Outline.inductionAll (fun o => o.OfSaga → EmitsSaga (e.outline o))
    e.BranchesEmitSaga e.CasesEmitSaga with
  | leaf n leaf h =>
    cases h with
    | leaf h => exact emitsSaga_leaf h
    | control h => cases h
  | gather n c callee name branches ih h =>
    intro l
    cases h with
    | gather h => exact List.forall_mem_singleton.2 (.combinator (ih h l))
    | control h => cases h
  | enclose n c callee name body ih h =>
    cases h with
    | control h => cases h
  | ifThen n condition os ih h =>
    intro l
    have hbody := emitsSaga_body (ih (by simpa [Outline.inside] using h.of_inside rfl))
    rw [run_ifElse_none]
    refine List.forall_mem_singleton.2 (.control rfl ?_)
    simpa [Flow.children] using hbody (l.counted Stats.addConditional)
  | ifElse n condition os ps ih ih' h =>
    intro l
    obtain ⟨hos, hps⟩ := List.forall_mem_append.1 (h.of_inside rfl)
    rw [run_ifElse_some]
    refine List.forall_mem_singleton.2 (.control rfl (List.forall_mem_append.2 ⟨?_, ?_⟩))
    · exact emitsSaga_body (ih hos) _
    · exact emitsSaga_body (ih' hps) _
  | ternary n condition os ps ih ih' h =>
    obtain ⟨hos, hps⟩ := List.forall_mem_append.1 (h.of_inside rfl)
    exact emitsSaga_ternary (ih hos) (ih' hps) n condition
  | guarded n condition body ih h =>
    intro l
    have hbody := emitsSaga_body (ih (h.of_inside rfl))
    rw [run_guarded]
    refine List.forall_mem_singleton.2 (.control rfl ?_)
    simpa [Flow.children] using hbody (l.counted Stats.addConditional)
  | switch n expression cases ih h =>
    exact emitsSaga_switch (ih (h.of_inside rfl)) n expression
  | loop n repetition body ih h =>
    exact emitsSaga_loop (ih (h.of_inside rfl)) n repetition
  | nil =>
    intro l f hf
    cases hf
  | noBranch | noCase =>
    intro _ l f hf
    cases hf
  | cons o os ih ih' =>
    intro l
    obtain ⟨ho, hos⟩ := List.forall_mem_cons.1 h
    exact List.forall_mem_append.2 ⟨ih ho l, ih' hos _⟩
  | branch os branches ih ih' =>
    intro h l
    obtain ⟨hbranch, hrest⟩ := List.forall_mem_cons.1 h
    refine List.forall_mem_append.2 ⟨?_, ih' hrest _⟩
    exact emitsSaga_branch (fun himplicit => ih (hbranch himplicit)) l
  | case value isDefault os cases ih ih' =>
    intro h l
    obtain ⟨hbody, hrest⟩ := List.forall_mem_append.1 h
    exact List.forall_mem_append.2 ⟨emitsSaga_body (ih hbody) l, ih' hrest _⟩

end Emitter

end FlowShape
