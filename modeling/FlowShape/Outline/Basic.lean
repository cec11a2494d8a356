import FlowShape.Call.Shape

/-!
# Outlines

An outline is the control flow of a callback as its syntax shows it, before anything is numbered,
counted or left out. Each part remembers the syntax node it was read from.
-/

namespace FlowShape

/-- Work without inner structure. -/
inductive Leaf where
  | step (name key : Option String) (step : Step)
  | sagaStep (name key : Option String) (step : SagaStep)
  | stream (stream : Stream)
  | workflowRef (ref : WorkflowRef)
  | unknown (unknown : Unknown)

inductive Outline where
  | leaf (origin : Node) (leaf : Leaf)
  /-- A combinator with its branches, each of which takes one place. -/
  | gather (origin : Node) (combinator : Combinator) (callee : String) (name : Option String)
      (branches : List (List Outline))
  /-- A callback run by a method of the step function. A lone combinator of the same sort in it
  stands for the call itself. -/
  | enclose (origin : Node) (combinator : Combinator) (callee : String) (name : Option String)
      (body : List Outline)
  | ifElse (origin : Node) (condition : String) (consequent : List Outline)
      (alternate : Option (List Outline))
  | ternary (origin : Node) (condition : String) (consequent alternate : List Outline)
  /-- A branch made by a helper. -/
  | guarded (origin : Node) (condition : Condition) (body : List Outline)
  | switch (origin : Node) (expression : String) (cases : List (Case Outline))
  | loop (origin : Node) (repetition : Repetition) (body : List Outline)

end FlowShape
