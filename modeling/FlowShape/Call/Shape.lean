import FlowShape.Expr.Callee
import FlowShape.Flow.Basic
import FlowShape.Scope.Parameter

/-!
# Shapes of calls

What a call means inside a workflow callback. A callee is matched as a whole chain of member
accesses, so `tracker.step` or `data.parallel` are never taken for steps. The first rule that
applies decides.
-/

namespace FlowShape

/-- The methods of the step function. -/
inductive StepMethod where
  | retry | withTimeout | parallel | race
  | stream (kind : StreamKind)
  deriving DecidableEq

namespace StepMethod

def ofName? : String → Option StepMethod
  | "retry" => some .retry
  | "withTimeout" => some .withTimeout
  | "parallel" => some .parallel
  | "race" => some .race
  | "getWritable" => some (.stream .write)
  | "getReadable" => some (.stream .read)
  | "streamForEach" => some (.stream .forEach)
  | _ => none

end StepMethod

/-- A combinator runs several branches at once. -/
inductive Combinator where
  | parallel (mode : ParallelMode)
  | race
  deriving DecidableEq

/-- The free functions of the library. -/
inductive Helper where
  | conditional (helper : ConditionalHelper)
  | combinator (combinator : Combinator)
  deriving DecidableEq

namespace Helper

def ofName? : String → Option Helper
  | "when" => some (.conditional ⟨false, false⟩)
  | "unless" => some (.conditional ⟨true, false⟩)
  | "whenOr" => some (.conditional ⟨false, true⟩)
  | "unlessOr" => some (.conditional ⟨true, true⟩)
  | "allAsync" => some (.combinator (.parallel .all))
  | "allSettledAsync" => some (.combinator (.parallel .allSettled))
  | "anyAsync" => some (.combinator .race)
  | _ => none

end Helper

inductive CallShape where
  | step
  | method (method : StepMethod)
  | helper (helper : Helper)
  | sagaStep (tryStep : Bool)
  | iteration (kind : LoopKind)
  | workflowRef (ref : WorkflowRef)
  deriving DecidableEq

/-- What a workflow callback binds. -/
structure Context where
  /-- The local name of the step function. -/
  step : Option String := none
  saga : Option SagaBinding := none
  /-- The workflow's own name, which is never a reference to another workflow. -/
  workflowName : Option String := none
  deriving DecidableEq

/-- The names that matter in a whole file: workflows defined in it, and local names of the
functions that run a workflow on the spot. -/
structure FileBindings where
  workflows : List String := []
  runners : List String := []
  deriving DecidableEq

/-- What is known while the body of a callback is read. -/
structure Reader where
  source : Source
  bindings : FileBindings
  context : Context

/-- The first argument of a call, if it is a function literal. -/
def Node.leadingCallback? (call : Node) : Option Node :=
  call.callArguments.head?.filter Node.isFunctionLiteral

namespace Reader

/-- The step function itself or one of its methods. -/
def stepShape? (r : Reader) (callee : String) : Option CallShape := do
  let step ← r.context.step
  if callee = step then some .step
  else ((Text.memberOf? step callee).bind StepMethod.ofName?).map .method

def helperShape? (callee : String) : Option CallShape :=
  (Helper.ofName? callee).map .helper

def sagaShape? (r : Reader) (callee : String) : Option CallShape :=
  (r.context.saga.bind (·.stepKind? callee)).map .sagaStep

/-- A method that calls its function argument for every element of a collection. -/
def iterationShape? (r : Reader) (function : Node) (callback : Option Node) : Option CallShape :=
  if function.kind = .memberExpression ∧ callback.isSome then
    match (function.child? .property).map r.source.text with
    | some "forEach" => some (.iteration .forEach)
    | some "map" => some (.iteration .map)
    | _ => none
  else none

/-- Whether the parameters of a callback look like those of a workflow. -/
def takesSteps (r : Reader) (callback : Node) : Bool :=
  match callback.parameterList? with
  | some parameters =>
    let text := (r.source.text parameters).toList
    Text.occurs "step".toList text || Text.occurs "deps".toList text
  | none => false

/-- A call of another workflow by its name. -/
def refShape? (r : Reader) (function : Node) (callee : String) (callback : Option Node) :
    Option CallShape := do
  let callback ← callback
  if function.kind = .identifier ∧ r.context.workflowName ≠ some callee ∧
      callee ∉ r.bindings.runners then
    if callee ∈ r.bindings.workflows then some (.workflowRef ⟨callee, true⟩)
    else if r.takesSteps callback then some (.workflowRef ⟨callee, false⟩)
    else none
  else none

/-- What a call means. -/
def classify (r : Reader) (call : Node) : Option CallShape := do
  let function := (← call.child? .function).unwrap
  let callee := r.source.calleeText function
  let callback := call.leadingCallback?
  r.stepShape? callee <|> helperShape? callee <|> r.sagaShape? callee <|>
    r.iterationShape? function callback <|> r.refShape? function callee callback

end Reader

end FlowShape
