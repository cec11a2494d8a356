import FlowShape.Flow.Id
import FlowShape.Source
import FlowShape.Step.Settings

/-!
# Flow nodes

The control-flow shape of a workflow body as it is reported: steps and other work at the leaves,
and branches, loops and combinators around them. `walk` lists a node and all nodes below it.
-/

namespace FlowShape

/-- What every flow node has. -/
structure Tag where
  id : Id
  name : Option String := none
  key : Option String := none
  location : Option Location := none
  deriving DecidableEq

/-- One unit of work. -/
structure Step where
  callee : String
  retry : Option Retry := none
  timeout : Option Timeout := none
  description : Option String := none
  markdown : Option String := none
  deriving DecidableEq

/-- A unit of work of a saga, which may know how to undo itself. -/
structure SagaStep where
  callee : String
  hasCompensation : Bool
  compensationCallee : Option String
  isTryStep : Bool
  deriving DecidableEq

inductive ParallelMode where
  /-- Fails with the first branch that fails. -/
  | all
  /-- Waits for every branch. -/
  | allSettled
  deriving DecidableEq

namespace ParallelMode

def name : ParallelMode → String
  | all => "all"
  | allSettled => "allSettled"

end ParallelMode

inductive StreamKind where
  | write | read | forEach
  deriving DecidableEq

namespace StreamKind

def name : StreamKind → String
  | write => "write"
  | read => "read"
  | forEach => "forEach"

end StreamKind

structure Stream where
  kind : StreamKind
  channel : Option String
  options : List (String × Numeric)
  deriving DecidableEq

/-- A helper that runs its callback on a condition: on its negation for `unless`, and with a value
for the other case for `whenOr` and `unlessOr`. -/
structure ConditionalHelper where
  negated : Bool
  hasDefault : Bool
  deriving DecidableEq

namespace ConditionalHelper

def name : ConditionalHelper → String
  | ⟨false, false⟩ => "when"
  | ⟨true, false⟩ => "unless"
  | ⟨false, true⟩ => "whenOr"
  | ⟨true, true⟩ => "unlessOr"

end ConditionalHelper

structure Condition where
  text : String
  helper : Option ConditionalHelper := none
  defaultValue : Option String := none
  deriving DecidableEq

/-- One case of a switch. -/
structure Case (α : Type) where
  value : Option String
  isDefault : Bool
  body : List α

inductive LoopKind where
  | forLoop | whileLoop | forOf | forIn | forEach | map
  deriving DecidableEq

namespace LoopKind

def name : LoopKind → String
  | forLoop => "for"
  | whileLoop => "while"
  | forOf => "for-of"
  | forIn => "for-in"
  | forEach => "forEach"
  | map => "map"

end LoopKind

/-- How a loop repeats its body. -/
structure Repetition where
  kind : LoopKind
  iterSource : Option String
  boundKnown : Bool
  boundCount : Option Nat
  deriving DecidableEq

/-- A call of another workflow; it is resolved if that workflow is defined in the same file. -/
structure WorkflowRef where
  workflowName : String
  resolved : Bool
  deriving DecidableEq

structure Unknown where
  reason : String
  sourceText : Option String
  deriving DecidableEq

inductive Flow where
  | step (tag : Tag) (step : Step)
  | sagaStep (tag : Tag) (step : SagaStep)
  | sequence (tag : Tag) (children : List Flow)
  | parallel (tag : Tag) (mode : ParallelMode) (callee : String) (children : List Flow)
  | race (tag : Tag) (callee : String) (children : List Flow)
  | stream (tag : Tag) (stream : Stream)
  | conditional (tag : Tag) (condition : Condition) (consequent : List Flow)
      (alternate : Option (List Flow))
  | switch (tag : Tag) (expression : String) (cases : List (Case Flow))
  | loop (tag : Tag) (repetition : Repetition) (body : List Flow)
  | workflowRef (tag : Tag) (ref : WorkflowRef)
  | unknown (tag : Tag) (unknown : Unknown)

namespace Flow

def tag : Flow → Tag
  | step tag _ | sagaStep tag _ | sequence tag _ | parallel tag _ _ _ | race tag _ _
  | stream tag _ | conditional tag _ _ _ | switch tag _ _ | loop tag _ _ | workflowRef tag _
  | unknown tag _ => tag

def typeName : Flow → String
  | step .. => "step"
  | sagaStep .. => "saga-step"
  | sequence .. => "sequence"
  | parallel .. => "parallel"
  | race .. => "race"
  | stream .. => "stream"
  | conditional .. => "conditional"
  | switch .. => "switch"
  | loop .. => "loop"
  | workflowRef .. => "workflow-ref"
  | unknown .. => "unknown"

/-- The nodes directly below, through every branch and case. -/
def children : Flow → List Flow
  | sequence _ cs | parallel _ _ _ cs | race _ _ cs | loop _ _ cs => cs
  | conditional _ _ consequent alternate => consequent ++ alternate.getD []
  | switch _ _ cases => cases.flatMap Case.body
  | step .. | sagaStep .. | stream .. | workflowRef .. | unknown .. => []

/-- Units of work. -/
def isStep : Flow → Bool
  | step .. | sagaStep .. => true
  | _ => false

/-- Nodes that stand for work, as opposed to control flow around it. -/
def isCallShape : Flow → Bool
  | step .. | sagaStep .. | parallel .. | race .. | stream .. | workflowRef .. => true
  | _ => false

/-! ## Walking -/

mutual

/-- A node and all nodes below it, parents first. -/
def walk : Flow → List Flow
  | sequence tag cs => sequence tag cs :: walkAll cs
  | parallel tag mode callee cs => parallel tag mode callee cs :: walkAll cs
  | race tag callee cs => race tag callee cs :: walkAll cs
  | conditional tag condition cs none => conditional tag condition cs none :: walkAll cs
  | conditional tag condition cs (some as) =>
    conditional tag condition cs (some as) :: (walkAll cs ++ walkAll as)
  | switch tag expression cases => switch tag expression cases :: walkCases cases
  | loop tag repetition cs => loop tag repetition cs :: walkAll cs
  | leaf => [leaf]

def walkAll : List Flow → List Flow
  | [] => []
  | f :: fs => f.walk ++ walkAll fs

def walkCases : List (Case Flow) → List Flow
  | [] => []
  | ⟨_, _, body⟩ :: cases => walkAll body ++ walkCases cases

end

/-- Whether some node at or below `f` stands for work. -/
def containsCallShape (f : Flow) : Bool := f.walk.any isCallShape

/-- Whether a body holds any work. -/
def hasWork (body : List Flow) : Bool := body.any containsCallShape

theorem walkAll_eq_flatMap (fs : List Flow) : walkAll fs = fs.flatMap walk := by
  induction fs with
  | nil => simp [walkAll]
  | cons f fs ih => simp [walkAll, ih]

theorem walkCases_eq_flatMap (cases : List (Case Flow)) :
    walkCases cases = (cases.flatMap Case.body).flatMap walk := by
  induction cases with
  | nil => simp [walkCases]
  | cons c cs ih => simp [walkCases, walkAll_eq_flatMap, ih]

theorem walk_eq (f : Flow) : f.walk = f :: f.children.flatMap walk := by
  cases f with
  | conditional tag condition consequent alternate =>
    cases alternate <;> simp [walk, children, walkAll_eq_flatMap]
  | _ => simp [walk, children, walkAll_eq_flatMap, walkCases_eq_flatMap]

end Flow

end FlowShape
