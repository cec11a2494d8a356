import FlowShape.Proofs.Reading.Origins

/-!
# The form of workflows

The rules that the nodes of a workflow keep. Those on the data of a node are rules on what is read
off the source; those on what stands inside a node come with emission.
-/

namespace FlowShape

/-! ## Rules on data -/

def SagaStep.WellFormed (s : SagaStep) : Prop :=
  s.hasCompensation ↔ s.compensationCallee.isSome

def Repetition.WellFormed (r : Repetition) : Prop := r.boundKnown ↔ r.boundCount.isSome

/-- Only the helpers `whenOr` and `unlessOr` have a value for the other case. -/
def Condition.WellFormed (c : Condition) : Prop :=
  c.defaultValue.isSome → ∃ helper ∈ c.helper, helper.name ∈ ["whenOr", "unlessOr"]

namespace Repetition

theorem wellFormed_ofBound (kind : LoopKind) (iterSource : Option String) (bound : Option Nat) :
    (ofBound kind iterSource bound).WellFormed :=
  Iff.rfl

theorem wellFormed_overHeader (src : Source) (statement body : Node) :
    (overHeader src statement body).WellFormed := by
  rw [overHeader]
  split <;> exact wellFormed_ofBound ..

end Repetition

theorem Condition.wellFormed_of_text (text : String) : Condition.WellFormed { text } := nofun

theorem Source.wellFormed_helperCondition (src : Source) (helper : ConditionalHelper)
    (arguments : List Node) : (src.helperCondition helper arguments).WellFormed := by
  intro h
  refine ⟨helper, rfl, ?_⟩
  obtain ⟨negated, hasDefault⟩ := helper
  cases hasDefault
  · cases h
  · cases negated <;> decide

/-! ## Outlines -/

/-- The data of an outline keeps its rules. -/
def Outline.WellFormed : Outline → Prop
  | .leaf _ (.sagaStep _ _ s) => s.WellFormed
  | .guarded _ condition _ => condition.WellFormed
  | .loop _ repetition _ => repetition.WellFormed
  | _ => True

namespace Reader

variable {r : Reader} {n : Node} {o : Outline}

theorem wellFormed_of_mem_call {shape : CallShape} (h : o ∈ r.call shape n) : o.WellFormed := by
  unfold call at h
  split at h
  case h_5 =>
    obtain rfl := List.mem_singleton.1 h
    exact Bool.eq_iff_iff.1 Option.isSome_map.symm
  case h_7 => split at h <;> exact List.mem_singleton.1 h ▸ trivial
  case h_9 =>
    obtain rfl := List.mem_singleton.1 h
    exact r.source.wellFormed_helperCondition _ _
  case h_11 =>
    simp only [List.map_subtype, List.unattach_attach, List.mem_map] at h
    obtain ⟨f, -, rfl⟩ := h
    exact Repetition.wellFormed_ofBound ..
  all_goals exact List.mem_singleton.1 h ▸ trivial

theorem Makes.wellFormed (h : r.Makes n o) : o.WellFormed := by
  cases h with
  | call _ h => exact wellFormed_of_mem_call h
  | forLoop | whileLoop => exact Repetition.wellFormed_ofBound ..
  | forInLoop => exact Repetition.wellFormed_overHeader ..
  | _ => trivial

end Reader

/-! ## Nodes -/

/-- The rules that a node keeps. -/
def Flow.WellFormed : Flow → Prop
  | .sequence tag cs =>
    (tag.name = none ∧ tag.key = none ∧ tag.location = none) ∧
      2 ≤ cs.length ∧ ∀ c ∈ cs, !c.isSequence
  | .conditional _ condition cs as =>
    (cs.length ≤ 1 ∧ ∀ ns ∈ as, ns.length ≤ 1) ∧
      (condition.helper.isSome → as = none) ∧ condition.WellFormed
  | .switch _ _ cases =>
    (∀ c ∈ cases, c.body.length ≤ 1) ∧ ∃ c ∈ cases, ∃ f ∈ c.body, f.containsCallShape
  | .loop _ repetition body =>
    body.length ≤ 1 ∧ (∃ f ∈ body, f.containsCallShape) ∧ repetition.WellFormed
  | .sagaStep _ s => s.WellFormed
  | _ => True

theorem Flow.Joined.wellFormed {f : Flow} (h : f.Joined) : f.WellFormed := by
  obtain ⟨id, cs, rfl, hlength, hs⟩ := h
  exact ⟨⟨rfl, rfl, rfl⟩, hlength, hs⟩

theorem Emitter.Renders.wellFormed {e : Emitter} {o : Outline} {f : Flow} (h : e.Renders o f)
    (ho : o.WellFormed) : f.WellFormed := by
  cases h with
  | leaf origin leaf l => cases leaf <;> exact ho
  | @gather _ c | @enclose _ c => cases c <;> trivial
  | ifElse hcs has => exact ⟨⟨hcs, has⟩, nofun, Condition.wellFormed_of_text _⟩
  | ternary _ hcs has =>
    exact ⟨⟨hcs, by simpa using has⟩, nofun, Condition.wellFormed_of_text _⟩
  | guarded hcs => exact ⟨⟨hcs, nofun⟩, fun _ => rfl, ho⟩
  | switch hwork hcs => exact ⟨hcs, by simpa [Flow.hasWork] using hwork⟩
  | loop hwork hns => exact ⟨hns, by simpa [Flow.hasWork] using hwork, ho⟩

/-! ## Workflows -/

theorem Assembly.wellFormed_workflow (a : Assembly) (entry : EntryPoint) (callback : Node)
    (used : Nat) : ∀ f ∈ (a.workflow entry callback used).1.walk, f.WellFormed := by
  intro f hf
  obtain hf | ⟨m, s, o, -, -, hmade, hf⟩ := a.joined_or_made entry callback used hf
  · exact hf.wellFormed
  · exact hf.wellFormed hmade.wellFormed

theorem Assembly.length_children_workflow (a : Assembly) (entry : EntryPoint) (callback : Node)
    (used : Nat) : (a.workflow entry callback used).1.root.children.length ≤ 1 :=
  ((Emitter.runs_outlines a.emitter (a.outline entry callback)).body { used }).2

/-- Every workflow is well formed: its body is at most one node, and all its nodes keep the rules
of their kind. -/
theorem Analysis.workflows_wellFormed (options : Options) (now : Timestamp) (src : Source)
    (tree : Node) (used : Nat) (h : tree.label.flawed = false) :
    ∃ a after, Analysis.run options now src tree used = .ok (a, after) ∧
      ∀ w ∈ a.allWorkflows, w.root.children.length ≤ 1 ∧ ∀ f ∈ w.walk, f.WellFormed := by
  refine Analysis.exists_run_forall h (fun w hw => hw) ?_
  intro entry _ callback before _
  exact ⟨Assembly.length_children_workflow _ entry callback before,
    Assembly.wellFormed_workflow _ entry callback before⟩

/-- A conditional around a sequence of two steps. -/
theorem Analysis.workflows_wellFormed_head :
    Sample.headTree.label.flawed = false ∧
      ∃ a after w f, Analysis.run { assumeImported := true } ⟨0, 0, 0⟩ Sample.headSource
          Sample.headTree 0 = .ok (a, after) ∧ w ∈ a.allWorkflows ∧ w.root.children.length ≤ 1 ∧
        f ∈ w.walk ∧ f.typeName = "sequence" ∧ f.WellFormed := by
  have hrun : ((Analysis.run { assumeImported := true } ⟨0, 0, 0⟩ Sample.headSource
      Sample.headTree 0).toOption.map fun p => p.1.allWorkflows.map fun w =>
        w.walk.map Flow.typeName) = some [["conditional", "sequence", "step", "step"]] := by
    decide +kernel
  obtain ⟨a, after, h, hall⟩ := Analysis.workflows_wellFormed { assumeImported := true }
    ⟨0, 0, 0⟩ Sample.headSource Sample.headTree 0 rfl
  rw [h] at hrun
  simp only [Except.toOption, Option.map_some, Option.some.injEq, List.map_eq_cons_iff] at hrun
  obtain ⟨w, ws, hw, ⟨c, cs, hwalk, -, f, fs, hcs, hname, -⟩, -⟩ := hrun
  have hmem : w ∈ a.allWorkflows := by simp [hw]
  have hf : f ∈ w.walk := by simp [hwalk, hcs]
  exact ⟨rfl, a, after, w, f, h, hmem, (hall w hmem).1, hf, hname, (hall w hmem).2 f hf⟩

end FlowShape
