import FlowShape.Proofs.Outline.Inside
import FlowShape.Proofs.Reading.Entering
import FlowShape.Proofs.Reading.Likeness

/-!
# Outlines of sagas

The callback of a saga binds no step function. So what is read in it holds no stream and no method
that runs a callback, and a step only as the whole of a branch of a combinator.
-/

namespace FlowShape

/-- The leaves that stand by themselves in a saga. -/
def Leaf.isOfSaga : Leaf → Bool
  | sagaStep .. | workflowRef .. | unknown .. => true
  | step .. | stream .. => false

namespace Outline

/-- The outlines that branch or repeat what is inside them. -/
def isControl : Outline → Bool
  | ifElse .. | ternary .. | guarded .. | switch .. | loop .. => true
  | leaf .. | gather .. | enclose .. => false

/-- A branch that is a step for want of another meaning. -/
def IsImplicitBranch (branch : List Outline) : Prop :=
  ∃ origin name callee, branch = [Reader.implicitStep origin name callee]

/-- The outlines that are found in a saga. -/
inductive OfSaga : Outline → Prop
  | leaf {origin : Node} {leaf : Leaf} : leaf.isOfSaga → OfSaga (.leaf origin leaf)
  | gather {origin : Node} {c : Combinator} {callee : String} {name : Option String}
      {branches : List (List Outline)} :
      (∀ branch ∈ branches, ¬IsImplicitBranch branch → ∀ o ∈ branch, OfSaga o) →
      OfSaga (.gather origin c callee name branches)
  | control {o : Outline} : o.isControl → (∀ p ∈ o.inside, OfSaga p) → OfSaga o

end Outline

namespace Reader

/-- In every role, what is found in a node is of a saga; in the role of a branch it may also be a
step. -/
structure ReadsSaga (r : Reader) (n : Node) : Prop where
  statement : ∀ o ∈ r.statement n, o.OfSaga
  expression : ∀ o ∈ r.expression n, o.OfSaga
  callback : ∀ o ∈ r.callback n, o.OfSaga
  argument : ∀ o ∈ r.argument n, o.OfSaga
  element : ¬Outline.IsImplicitBranch (r.element n) → ∀ o ∈ r.element n, o.OfSaga

section Below

variable {r : Reader} {n : Node} (hstep : r.context.step = none)
  (ih : ∀ m : Node, m.size < n.size → r.ReadsSaga m)

include ih

theorem ofSaga_gather (c : Combinator) :
    ∀ o ∈ r.call (.helper (.combinator c)) n, o.OfSaga := by
  intro o ho
  rw [call_combinator] at ho
  obtain rfl := List.mem_singleton.1 ho
  refine .gather fun branch hbranch himplicit => ?_
  split at hbranch
  · next elements helements =>
    obtain ⟨x, hx, rfl⟩ := List.mem_map.1 hbranch
    exact (ih x (Node.size_lt_of_mem_branchElements? helements hx)).element himplicit
  · obtain ⟨x, hx, rfl⟩ := List.mem_map.1 hbranch
    exact (ih x (Node.size_lt_of_mem_argumentAt hx)).argument

include hstep

/-- Without a step function, a call has one of the other shapes. -/
theorem ofSaga_call {shape : CallShape} (hshape : r.shapeOf? n = some shape) :
    ∀ o ∈ r.call shape n, o.OfSaga := by
  cases classified (classify_of_shapeOf? hshape).2 with
  | step h | method h => cases hstep.symm.trans h
  | @helper helper _ =>
    cases helper with
    | combinator c => exact ofSaga_gather ih c
    | conditional helper =>
      intro o ho
      rw [call_conditional] at ho
      obtain rfl := List.mem_singleton.1 ho
      refine .control rfl (List.forall_mem_flatMap.2 fun a ha => ?_)
      exact (ih a (Node.size_lt_of_mem_argumentAt ha)).argument
  | sagaStep | workflowRef =>
    intro o ho
    rw [Reader.call] at ho
    obtain rfl := List.mem_singleton.1 ho
    exact .leaf rfl
  | iteration =>
    intro o ho
    rw [call_iteration] at ho
    obtain ⟨f, hf, rfl⟩ := List.mem_map.1 ho
    exact .control rfl (ih f (Node.size_lt_of_mem_argumentAt hf)).callback

omit hstep

/-- A loop around a statement. -/
theorem ofSaga_loop (repetition : Node → Repetition) :
    ∀ o ∈ (n.inField .body).map fun body => Outline.loop n (repetition body) (r.statement body),
      o.OfSaga := by
  intro o ho
  obtain ⟨body, hbody, rfl⟩ := List.mem_map.1 ho
  exact .control rfl (ih body (Node.size_lt_of_mem_inField hbody)).statement

theorem ofSaga_ifElse (condition : String) :
    Outline.OfSaga (.ifElse n condition ((n.inField .consequence).flatMap r.statement)
      ((n.child? .alternative).map fun clause => clause.parts.flatMap r.statement)) := by
  refine .control rfl fun p hp => ?_
  rcases List.mem_append.1 hp with hp | hp
  · obtain ⟨s, hs, hp⟩ := List.mem_flatMap.1 hp
    exact (ih s (Node.size_lt_of_mem_inField hs)).statement p hp
  · cases hclause : n.child? .alternative with
    | none => simp [hclause] at hp
    | some clause =>
      simp only [hclause, Option.map_some, Option.getD_some, List.mem_flatMap] at hp
      obtain ⟨s, hs, hp⟩ := hp
      have := Node.size_lt_of_mem_parts hs
      have := Node.size_lt_of_child? hclause
      exact (ih s (by omega)).statement p hp

theorem ofSaga_switch (expression : String) :
    Outline.OfSaga (.switch n expression (n.switchCases.map fun c =>
      ⟨(c.child? .value).map r.source.text, c.kind == .switchDefault,
        (c.partsBut .value).flatMap r.statement⟩)) := by
  refine .control rfl fun p hp => ?_
  simp only [Outline.inside, List.mem_flatMap, List.mem_map] at hp
  obtain ⟨_, ⟨c, hc, rfl⟩, hp⟩ := hp
  obtain ⟨s, hs, hp⟩ := List.mem_flatMap.1 hp
  have := Node.size_lt_of_mem_partsBut hs
  have := Node.size_lt_of_mem_switchCases hc
  exact (ih s (by omega)).statement p hp

theorem ofSaga_statement : ∀ o ∈ r.statement n, o.OfSaga := by
  have hfirst : ∀ o ∈ (n.parts.take 1).flatMap r.expression, o.OfSaga :=
    List.forall_mem_flatMap.2 fun c hc =>
      (ih c (Node.size_lt_of_mem_parts (List.mem_of_mem_take hc))).expression
  have hvalues : ∀ o ∈ n.declaredValues.flatMap r.expression, o.OfSaga :=
    List.forall_mem_flatMap.2 fun c hc => (ih c (Node.size_lt_of_mem_declaredValues hc)).expression
  rw [statement_eq]
  -- One case for each kind of statement, in the order of `statement_eq`.
  split
  · exact hfirst
  · exact hfirst
  · exact hfirst
  · exact hvalues
  · exact hvalues
  · exact List.forall_mem_flatMap.2 fun c hc => (ih c (Node.size_lt_of_mem_parts hc)).statement
  · exact List.forall_mem_singleton.2 (ofSaga_ifElse ih _)
  · exact ofSaga_loop ih _
  · exact ofSaga_loop ih _
  · exact ofSaga_loop ih _
  · exact ofSaga_loop ih _
  · exact List.forall_mem_map.2 fun _ _ => ofSaga_switch ih _
  · exact List.forall_mem_flatMap.2 fun c hc => (ih c (Node.size_lt_of_mem_tryBlocks hc)).statement
  · exact List.forall_mem_flatMap.2 fun c hc => (ih c (Node.size_lt_of_mem_inField hc)).statement
  · split
    · simp
    · exact List.forall_mem_singleton.2 (.leaf rfl)

theorem ofSaga_callback : ∀ o ∈ r.callback n, o.OfSaga := by
  rw [callback_eq]
  refine List.forall_mem_flatMap.2 fun body hbody => ?_
  have hread := ih body (Node.size_lt_of_mem_inField hbody)
  split
  · exact hread.statement
  · exact hread.expression

include hstep

/-- What an expression holds that has no wrapper around it. -/
theorem ofSaga_expression (hn : n.unwrap = n) : ∀ o ∈ r.expression n, o.OfSaga := by
  have hfield (f : Field) : ∀ o ∈ (n.inField f).flatMap r.expression, o.OfSaga :=
    List.forall_mem_flatMap.2 fun c hc => (ih c (Node.size_lt_of_mem_inField hc)).expression
  rw [expression_eq, hn]
  split
  · simp
  split
  · refine List.forall_mem_append.2 ⟨hfield .condition, List.forall_mem_singleton.2 ?_⟩
    exact .control rfl (List.forall_mem_append.2 ⟨hfield .consequence, hfield .alternative⟩)
  split
  · exact List.forall_mem_flatMap.2 fun c hc => (ih c (Node.size_lt_of_mem_parts hc)).expression
  · next shape hshape => exact ofSaga_call hstep ih hshape

end Below

/-- What is read without a step function is of a saga. -/
theorem readsSaga {r : Reader} (hstep : r.context.step = none) (n : Node) : r.ReadsSaga n := by
  -- By size and not by children: what stands in several wrappers is no child of the outermost.
  induction hsize : n.size using Nat.strongRecOn generalizing n with
  | ind k ih =>
    subst hsize
    have ih' (m : Node) (hlt : m.size < n.size) := ih m.size hlt m rfl
    have ihop (m : Node) (hlt : m.size < n.unwrap.size) :=
      ih' m (Nat.lt_of_lt_of_le hlt n.size_unwrap_le)
    have hexpression := ofSaga_expression hstep ihop n.unwrap_unwrap
    have hargument : ∀ o ∈ r.argument n, o.OfSaga := by
      rw [argument_eq]
      split
      · exact ofSaga_callback ihop
      · exact hexpression
    refine ⟨ofSaga_statement ih', expression_unwrap r n ▸ hexpression, ofSaga_callback ih',
      hargument, ?_⟩
    rw [element_eq, argument_unwrap]
    split
    · exact fun himplicit => absurd ⟨_, _, _, rfl⟩ himplicit
    · exact fun _ => hargument

end Reader

end FlowShape
