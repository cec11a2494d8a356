import FlowShape.Proofs.Emission.Derivation
import FlowShape.Proofs.Reading.Likeness

/-!
# Loops

A loop statement, and a call of a collection method, is emitted as at most one node. That node is a
loop, and how it repeats depends on the syntax alone.
-/

namespace FlowShape

theorem Emitter.repetition_eq_of_run {e : Emitter} {l : Ledger} {origin : Node}
    {repetition repetition' : Repetition} {os : List Outline} {tag : Tag} {body : List Flow}
    (h : ((e.outlines [.loop origin repetition os]).run l).1 = [.loop tag repetition' body]) :
    repetition' = repetition := by
  have hrun : ((e.outline (.loop origin repetition os)).run l).1 ++ [] =
      [.loop tag repetition' body] := h
  rw [run_loop, List.append_nil] at hrun
  dsimp only at hrun
  split at hrun
  · cases hrun
    rfl
  · cases hrun

/-- How a loop repeats. -/
def Flow.repetition? : Flow → Option Repetition
  | loop _ repetition _ => some repetition
  | _ => none

namespace Reader

variable {r : Reader} {n : Node} {repetition : Repetition}

/-- In its role, a node is emitted as one loop that repeats so. -/
def LoopsAs (r : Reader) (m : Mode) (n : Node) (repetition : Repetition) : Prop :=
  ∃ (e : Emitter) (l : Ledger) (tag : Tag) (body : List Flow),
    ((e.outlines (r.read m n)).run l).1 = [.loop tag repetition body]

namespace LoopsAs

theorem of_run {m : Mode} {e : Emitter} {l : Ledger}
    (h : ((e.outlines (r.read m n)).run l).1.map Flow.repetition? = [some repetition]) :
    r.LoopsAs m n repetition := by
  obtain ⟨f, hf, hrepetition⟩ := List.map_eq_singleton_iff.1 h
  cases f with
  | loop tag repetition' body =>
    cases hrepetition
    exact ⟨e, l, tag, body, hf⟩
  | _ => cases hrepetition

theorem of_statement {repetitionOf : Node → Repetition} (h : r.LoopsAs .statement n repetition)
    (hn : r.statement n = (n.inField .body).map fun body =>
      .loop n (repetitionOf body) (r.statement body)) :
    ∃ body, n.child? .body = some body ∧ repetition = repetitionOf body := by
  obtain ⟨e, l, tag, ns, h⟩ := h
  rw [read_statement, hn, Node.inField] at h
  cases hbody : n.child? .body with
  | none =>
    rw [hbody] at h
    cases h
  | some body =>
    rw [hbody] at h
    exact ⟨body, rfl, Emitter.repetition_eq_of_run h⟩

theorem forStatement (h : r.LoopsAs .statement n repetition) (hkind : n.kind = .forStatement) :
    repetition = .ofBound .forLoop none (r.source.countedBound? n) := by
  obtain ⟨body, -, rfl⟩ := h.of_statement (by rw [statement_eq, hkind])
  rfl

theorem forInStatement (h : r.LoopsAs .statement n repetition)
    (hkind : n.kind = .forInStatement) :
    ∃ body, n.child? .body = some body ∧ repetition = .overHeader r.source n body :=
  h.of_statement (by rw [statement_eq, hkind])

theorem iteration {kind : LoopKind} (h : r.LoopsAs .expression n repetition)
    (hkind : n.kind = .callExpression) (hshape : r.classify n = some (.iteration kind)) :
    repetition = .overElements r.source kind n.receiver? := by
  obtain ⟨e, l, tag, ns, h⟩ := h
  rw [read_expression, expression_call hkind hshape, call_iteration, Node.argumentAt] at h
  cases hf : n.callArguments[0]? with
  | none =>
    rw [hf] at h
    cases h
  | some f =>
    rw [hf] at h
    exact Emitter.repetition_eq_of_run h

end LoopsAs

end Reader

end FlowShape
