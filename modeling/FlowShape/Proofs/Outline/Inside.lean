import FlowShape.Outline.Basic

/-!
# Inside an outline

The outlines right inside an outline, its leaves in the order in which they are read, and a walk
through all that is inside it. `inductionAll` is the induction that goes along with such a walk.
-/

namespace FlowShape

namespace Leaf

def typeName : Leaf → String
  | step .. => "step"
  | sagaStep .. => "saga-step"
  | stream .. => "stream"
  | workflowRef .. => "workflow-ref"
  | unknown .. => "unknown"

def isStep : Leaf → Bool
  | step .. | sagaStep .. => true
  | _ => false

end Leaf

namespace Outline

/-- The node from which an outline was read. -/
def origin : Outline → Node
  | leaf n _ | gather n _ _ _ _ | enclose n _ _ _ _ | ifElse n _ _ _ | ternary n _ _ _
  | guarded n _ _ | switch n _ _ | loop n _ _ => n

/-- The outlines right inside an outline. -/
def inside : Outline → List Outline
  | leaf .. => []
  | gather _ _ _ _ branches => branches.flatten
  | enclose _ _ _ _ body | guarded _ _ body | loop _ _ body => body
  | ifElse _ _ os ps => os ++ ps.getD []
  | ternary _ _ os ps => os ++ ps
  | switch _ _ cases => cases.flatMap Case.body

def isLeaf : Outline → Bool
  | leaf .. => true
  | _ => false

mutual

/-- The leaves of an outline with the nodes from which they were read. -/
def leaves : Outline → List (Node × Leaf)
  | leaf n l => [(n, l)]
  | gather _ _ _ _ branches => leavesBranches branches
  | enclose _ _ _ _ body => leavesAll body
  | guarded _ _ body => leavesAll body
  | loop _ _ body => leavesAll body
  | ifElse _ _ os none => leavesAll os
  | ifElse _ _ os (some ps) => leavesAll os ++ leavesAll ps
  | ternary _ _ os ps => leavesAll os ++ leavesAll ps
  | switch _ _ cases => leavesCases cases

def leavesAll : List Outline → List (Node × Leaf)
  | [] => []
  | o :: os => o.leaves ++ leavesAll os

def leavesBranches : List (List Outline) → List (Node × Leaf)
  | [] => []
  | branch :: branches => leavesAll branch ++ leavesBranches branches

def leavesCases : List (Case Outline) → List (Node × Leaf)
  | [] => []
  | ⟨_, _, body⟩ :: cases => leavesAll body ++ leavesCases cases

end

theorem leavesAll_eq_flatMap (os : List Outline) : leavesAll os = os.flatMap leaves := by
  induction os with
  | nil => rw [leavesAll]; rfl
  | cons o os ih => rw [leavesAll, ih, List.flatMap_cons]

theorem leavesBranches_eq_flatMap (branches : List (List Outline)) :
    leavesBranches branches = branches.flatten.flatMap leaves := by
  induction branches with
  | nil => rw [leavesBranches]; rfl
  | cons branch branches ih =>
    rw [leavesBranches, ih, leavesAll_eq_flatMap, List.flatten_cons, List.flatMap_append]

theorem leavesCases_eq_flatMap (cases : List (Case Outline)) :
    leavesCases cases = (cases.flatMap Case.body).flatMap leaves := by
  induction cases with
  | nil => rw [leavesCases]; rfl
  | cons c cs ih =>
    rw [leavesCases, ih, leavesAll_eq_flatMap, List.flatMap_cons, List.flatMap_append]

@[simp] theorem leaves_leaf (n : Node) (l : Leaf) : (leaf n l).leaves = [(n, l)] := by
  rw [leaves]

theorem leaves_of_not_isLeaf {o : Outline} (h : o.isLeaf = false) :
    o.leaves = o.inside.flatMap leaves := by
  cases o with
  | leaf => cases h
  | ifElse n condition os ps =>
    cases ps <;> simp [leaves, inside, leavesAll_eq_flatMap]
  | _ =>
    simp [leaves, inside, leavesAll_eq_flatMap, leavesBranches_eq_flatMap,
      leavesCases_eq_flatMap]

/-- An outline has another if it is that outline or has it somewhere inside. -/
inductive Has : Outline → Outline → Prop
  | self (o : Outline) : o.Has o
  | inside {o p q : Outline} : p ∈ o.inside → p.Has q → o.Has q

/-! ## Walks -/

mutual

/-- An outline and all outlines inside it, the outer ones first. -/
def walk : Outline → List Outline
  | leaf n l => [leaf n l]
  | gather n c callee name branches => gather n c callee name branches :: walkBranches branches
  | enclose n c callee name body => enclose n c callee name body :: walkAll body
  | guarded n condition body => guarded n condition body :: walkAll body
  | loop n repetition body => loop n repetition body :: walkAll body
  | ifElse n condition os none => ifElse n condition os none :: walkAll os
  | ifElse n condition os (some ps) =>
    ifElse n condition os (some ps) :: (walkAll os ++ walkAll ps)
  | ternary n condition os ps => ternary n condition os ps :: (walkAll os ++ walkAll ps)
  | switch n expression cases => switch n expression cases :: walkCases cases

def walkAll : List Outline → List Outline
  | [] => []
  | o :: os => o.walk ++ walkAll os

def walkBranches : List (List Outline) → List Outline
  | [] => []
  | branch :: branches => walkAll branch ++ walkBranches branches

def walkCases : List (Case Outline) → List Outline
  | [] => []
  | ⟨_, _, body⟩ :: cases => walkAll body ++ walkCases cases

end

theorem walkAll_eq_flatMap (os : List Outline) : walkAll os = os.flatMap walk := by
  induction os with
  | nil => rw [walkAll]; rfl
  | cons o os ih => rw [walkAll, ih, List.flatMap_cons]

theorem walkBranches_eq_flatMap (branches : List (List Outline)) :
    walkBranches branches = branches.flatten.flatMap walk := by
  induction branches with
  | nil => rw [walkBranches]; rfl
  | cons branch branches ih =>
    rw [walkBranches, ih, walkAll_eq_flatMap, List.flatten_cons, List.flatMap_append]

theorem walkCases_eq_flatMap (cases : List (Case Outline)) :
    walkCases cases = (cases.flatMap Case.body).flatMap walk := by
  induction cases with
  | nil => rw [walkCases]; rfl
  | cons c cs ih =>
    rw [walkCases, ih, walkAll_eq_flatMap, List.flatMap_cons, List.flatMap_append]

theorem walk_eq (o : Outline) : o.walk = o :: o.inside.flatMap walk := by
  cases o with
  | ifElse n condition os ps => cases ps <;> simp [walk, inside, walkAll_eq_flatMap]
  | _ =>
    simp [walk, inside, walkAll_eq_flatMap, walkBranches_eq_flatMap, walkCases_eq_flatMap]

/-! ## Induction -/

/-- Induction on lists of outlines. The first three properties are those that are shown on the way:
of one outline, of the branches of a combinator and of the cases of a switch. -/
@[elab_as_elim]
theorem inductionAll (one : Outline → Prop) (each : List (List Outline) → Prop)
    (every : List (Case Outline) → Prop) {motive : List Outline → Prop}
    (leaf : ∀ n l, one (leaf n l))
    (gather : ∀ n c callee name branches, each branches → one (gather n c callee name branches))
    (enclose : ∀ n c callee name body, motive body → one (enclose n c callee name body))
    (ifThen : ∀ n condition os, motive os → one (ifElse n condition os none))
    (ifElse : ∀ n condition os ps, motive os → motive ps → one (ifElse n condition os (some ps)))
    (ternary : ∀ n condition os ps, motive os → motive ps → one (ternary n condition os ps))
    (guarded : ∀ n condition body, motive body → one (guarded n condition body))
    (switch : ∀ n expression cases, every cases → one (switch n expression cases))
    (loop : ∀ n repetition body, motive body → one (loop n repetition body))
    (nil : motive []) (cons : ∀ o os, one o → motive os → motive (o :: os))
    (noBranch : each [])
    (branch : ∀ os branches, motive os → each branches → each (os :: branches))
    (noCase : every [])
    (case : ∀ value isDefault os cases, motive os → every cases →
      every (⟨value, isDefault, os⟩ :: cases))
    (os : List Outline) : motive os :=
  (walk.mutual_induct one every motive each leaf gather enclose guarded loop ifThen ifElse ternary
    switch noBranch branch nil cons noCase case).2.2.1 os

end Outline

end FlowShape
