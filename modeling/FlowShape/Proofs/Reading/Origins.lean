import FlowShape.Proofs.Emission.Rendering
import FlowShape.Proofs.Reading.Coverage
import FlowShape.Proofs.Reading.Entering

/-!
# Where nodes were read

Each node of a workflow joins others or renders an outline that was made at a site of the callback.
Saga steps, streams and calls of other workflows are read off calls of one shape each, so for such a
node there is a call to which the rule for that shape applies.
-/

namespace FlowShape

/-- Each node joins others, or it renders an outline made at a site that reading gets to. -/
theorem Assembly.joined_or_made (a : Assembly) (entry : EntryPoint) (callback : Node) (used : Nat)
    {f : Flow} (h : f ∈ (a.workflow entry callback used).1.walk) :
    f.Joined ∨ ∃ m s o, (a.reader entry callback).Reaches callback m s ∧ m.makes ∧
      (a.reader entry callback).Makes s.node o ∧ a.emitter.Renders o f := by
  have hemits := a.emitter.emits_body (a.outline entry callback) { used }
  refine (hemits.rendersAll f h).imp_right ?_
  rintro ⟨o, ho, p, hp, hrenders⟩
  have hread : o ∈ (a.reader entry callback).read .callback (Site.root callback).node := by
    rwa [Reader.read_callback]
  obtain ⟨m, s, hreaches, hm, hmade⟩ := Reader.Reaches.root.exists_makes hread hp
  exact ⟨m, s, p, hreaches, hm, hmade, hrenders⟩

/-! ## Leaves that stand for calls -/

namespace Leaf

/-- Leaves that always stand for a call of a known shape. -/
def isCalled : Leaf → Bool
  | sagaStep .. | stream .. | workflowRef .. => true
  | step .. | unknown .. => false

/-- The shapes of the calls that are read as a leaf. -/
def ReadFrom : Leaf → CallShape → Prop
  | step .., shape => shape ∈ [.step, .method .retry, .method .withTimeout]
  | sagaStep .., shape => ∃ tryStep, shape = .sagaStep tryStep
  | stream .., shape => ∃ kind, shape = .method (.stream kind)
  | workflowRef ref, shape => shape = .workflowRef ref
  | unknown .., _ => False

/-- A node tells the shape of the call that it stands for. -/
theorem ReadFrom.of_node_eq {leaf leaf' : Leaf} {tag tag' : Tag} {shape : CallShape}
    (h : leaf.ReadFrom shape) (heq : leaf'.node tag' = leaf.node tag) : leaf'.ReadFrom shape := by
  cases leaf <;> cases leaf' <;> cases heq <;> exact h

end Leaf

namespace Reader

variable {r : Reader} {n origin : Node} {leaf : Leaf}

theorem readFrom_of_mem_call {shape : CallShape} (h : .leaf origin leaf ∈ r.call shape n) :
    leaf.ReadFrom shape := by
  unfold call at h
  split at h
  case h_1 | h_2 | h_3 =>
    cases List.mem_singleton.1 h
    simp [Leaf.ReadFrom]
  case h_4 | h_5 =>
    cases List.mem_singleton.1 h
    exact ⟨_, rfl⟩
  case h_6 =>
    cases List.mem_singleton.1 h
    rfl
  case h_7 => split at h <;> cases List.mem_singleton.1 h
  case h_11 =>
    simp only [List.map_subtype, List.unattach_attach, List.mem_map] at h
    obtain ⟨f, -, h⟩ := h
    cases h
  all_goals cases List.mem_singleton.1 h

theorem Makes.exists_classified (h : r.Makes n (.leaf origin leaf)) (hleaf : leaf.isCalled) :
    ∃ shape, r.Classified n shape ∧ leaf.ReadFrom shape := by
  generalize ho : Outline.leaf origin leaf = o at h
  cases h with
  | unknown | branch | keyedBranch =>
    cases ho
    cases hleaf
  | call hshape hmem =>
    subst ho
    exact ⟨_, classified (classify_of_shapeOf? hshape).2, readFrom_of_mem_call hmem⟩
  | _ => cases ho

end Reader

theorem Assembly.exists_classified (a : Assembly) (entry : EntryPoint) (callback : Node)
    (used : Nat) (leaf : Leaf) {tag : Tag} (hleaf : leaf.isCalled)
    (h : leaf.node tag ∈ (a.workflow entry callback used).1.walk) :
    ∃ call shape, (a.reader entry callback).Classified call shape ∧ leaf.ReadFrom shape := by
  obtain ⟨id, cs, hf, -⟩ | ⟨m, s, o, -, -, hmade, hrenders⟩ :=
    a.joined_or_made entry callback used h
  · cases leaf <;> cases hf
  generalize hf : leaf.node tag = f at hrenders
  cases hrenders with
  | leaf origin leaf' l =>
    have hleaf' : leaf'.isCalled := by cases leaf <;> cases leaf' <;> cases hf <;> exact hleaf
    obtain ⟨shape, hclassified, hshape⟩ := hmade.exists_classified hleaf'
    exact ⟨s.node, shape, hclassified, hshape.of_node_eq hf⟩
  | @gather _ c | @enclose _ c => cases c <;> cases leaf <;> cases hf
  | _ => cases leaf <;> cases hf

end FlowShape
