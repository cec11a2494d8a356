import FlowShape.Names
import FlowShape.Outline.Basic
import FlowShape.Outline.Bound
import FlowShape.Step.Arguments
import FlowShape.Step.Operation

/-!
# Reading outlines

Reads the outline of a callback off its syntax. Statements and expressions are searched in document
order; a call that means nothing by itself is searched for work in its parts. A function literal is
entered only as the callback of a helper, a combinator, a method of the step function or an
iteration.
-/

namespace FlowShape

/-! ## Where to look -/

namespace Node

/-- The first child in a field, as a list of at most one node. -/
def inField (n : Node) (f : Field) : List Node := (n.child? f).toList

/-- The argument of a call at a place, as a list of at most one node. -/
def argumentAt (call : Node) (i : Nat) : List Node := call.callArguments[i]?.toList

/-- The values of the variables that a statement declares. -/
def declaredValues (statement : Node) : List Node :=
  statement.parts.filterMap (·.child? .value)

/-- The blocks of a `try` statement, the handler and the finalizer included. -/
def tryBlocks (statement : Node) : List Node :=
  statement.inField .body ++ (statement.inField .handler).flatMap (·.inField .body) ++
    (statement.inField .finalizer).flatMap (·.inField .body)

/-- The cases of a `switch` statement. -/
def switchCases (statement : Node) : List Node :=
  (statement.inField .body).flatMap fun body =>
    body.parts.filter fun c => c.kind == .switchCase || c.kind == .switchDefault

/-- The first argument of a call, if it is an object literal. -/
def leadingObject? (call : Node) : Option Node :=
  (call.callArguments.head?.map unwrap).filter (·.kind == .object)

/-- The object whose method a call calls. -/
def receiver? (call : Node) : Option Node :=
  ((call.child? .function).map unwrap).bind (·.child? .object)

/-- The branches of a combinator call whose first argument is an array. -/
def branchElements? (call : Node) : Option (List Node) :=
  match call.callArguments with
  | [] => some []
  | first :: _ => if first.unwrap.kind = .array then some first.unwrap.parts else none

theorem size_lt_of_mem_inField {n c : Node} {f : Field} (h : c ∈ n.inField f) :
    c.size < n.size :=
  size_lt_of_child? (Option.mem_toList.1 h)

theorem size_lt_of_mem_argumentAt {n c : Node} {i : Nat} (h : c ∈ n.argumentAt i) :
    c.size < n.size :=
  size_lt_of_mem_callArguments (List.mem_of_getElem? (Option.mem_toList.1 h))

theorem size_lt_of_mem_declaredValues {n c : Node} (h : c ∈ n.declaredValues) :
    c.size < n.size := by
  obtain ⟨d, hd, hc⟩ := List.mem_filterMap.1 h
  exact Nat.lt_trans (size_lt_of_child? hc) (size_lt_of_mem_parts hd)

theorem size_lt_of_mem_tryBlocks {n c : Node} (h : c ∈ n.tryBlocks) : c.size < n.size := by
  simp only [tryBlocks, List.mem_append, List.mem_flatMap] at h
  rcases h with (h | ⟨m, hm, h⟩) | ⟨m, hm, h⟩
  · exact size_lt_of_mem_inField h
  · exact Nat.lt_trans (size_lt_of_mem_inField h) (size_lt_of_mem_inField hm)
  · exact Nat.lt_trans (size_lt_of_mem_inField h) (size_lt_of_mem_inField hm)

theorem size_lt_of_mem_switchCases {n c : Node} (h : c ∈ n.switchCases) : c.size < n.size := by
  obtain ⟨body, hb, hc⟩ := List.mem_flatMap.1 h
  exact Nat.lt_trans (size_lt_of_mem_parts (List.mem_filter.1 hc).1) (size_lt_of_mem_inField hb)

theorem size_lt_of_mem_branchElements? {n c : Node} {elements : List Node}
    (h : n.branchElements? = some elements) (hc : c ∈ elements) : c.size < n.size := by
  unfold branchElements? at h
  split at h
  · cases h
    cases hc
  · next first rest ha =>
    split at h
    · cases h
      have := size_lt_of_mem_parts hc
      have := first.size_unwrap_le
      have : first ∈ n.callArguments := by simp [ha]
      have := size_lt_of_mem_callArguments this
      omega
    · cases h

end Node

namespace Source

/-- The name that leads the arguments of a method of the step function. -/
def leadingName? (src : Source) (arguments : List Node) : Option String :=
  (arguments.head?.filter (!·.isFunctionLiteral)).map fun a =>
    (src.stringLiteral? a).getD (src.text a)

/-- The text of a header in parentheses. -/
def headerText (src : Source) (n : Node) (f : Field) : String :=
  ((n.child? f).map src.unparenthesized).getD ""

/-- The condition of a helper call. -/
def helperCondition (src : Source) (helper : ConditionalHelper) (arguments : List Node) :
    Condition where
  text := (arguments[0]?.map src.text).getD ""
  helper := some helper
  defaultValue := if helper.hasDefault then arguments[2]?.map src.text else none

end Source

namespace Repetition

/-- A loop whose number of rounds is known if there is a bound. -/
def ofBound (kind : LoopKind) (iterSource : Option String) (bound : Option Nat) : Repetition :=
  ⟨kind, iterSource, bound.isSome, bound⟩

/-- A loop over the elements of a collection. -/
def overElements (src : Source) (kind : LoopKind) (collection : Option Node) : Repetition :=
  ofBound kind (collection.map src.text) (collection.bind Node.arrayBound?)

/-- A loop with a header that names a collection; the header tells whether it goes over elements or
over keys. -/
def overHeader (src : Source) (statement body : Node) : Repetition :=
  let collection := statement.child? .right
  if Text.occurs " of ".toList (src.textUpTo statement body).toList then
    overElements src .forOf collection
  else
    ofBound .forIn (collection.map src.text) none

end Repetition

/-! ## Leaves -/

namespace Reader

/-- A step that is not called as one, as the branch of a combinator. -/
def implicitStep (origin : Node) (name callee : String) : Outline :=
  .leaf origin (.step (some name) none { callee })

def operationName (r : Reader) (arguments : StepArguments) : String :=
  (arguments.operation.map r.source.operationCallee).getD dynamicText

/-- The name of a step: from its settings, else its leading argument. -/
def stepName? (r : Reader) (settings : StepSettings) (arguments : StepArguments) : Option String :=
  settings.name <|> arguments.id.map r.source.staticString

def step (r : Reader) (call : Node) (settings : Source → Option Node → StepSettings) : Outline :=
  let arguments := StepArguments.ofList call.callArguments
  let s := settings r.source arguments.options
  .leaf call (.step (r.stepName? s arguments) s.key
    ⟨r.operationName arguments, s.retry, s.timeout, s.description, s.markdown⟩)

def sagaStep (r : Reader) (call : Node) (tryStep : Bool) : Outline :=
  let arguments := StepArguments.ofList call.callArguments
  let s := StepSettings.ofOptions r.source arguments.options
  let compensation := arguments.options.bind (r.source.property? · "compensate")
  .leaf call (.sagaStep (r.stepName? s arguments) s.key
    ⟨r.operationName arguments, compensation.isSome, compensation.map r.source.operationCallee,
      tryStep⟩)

/-- Adds one entry of an options object to a stream. -/
def streamEntry (src : Source) (stream : Stream) : String × Node → Stream
  | (key, value) =>
    let value := value.unwrap
    if key = "namespace" then { stream with channel := some (src.staticString value) }
    else if value.isFunctionLiteral then stream
    else { stream with options := Table.insert key (src.numeric value) stream.options }

def stream (r : Reader) (call : Node) (kind : StreamKind) : Outline :=
  let objects := (call.callArguments.map Node.unwrap).filter (·.kind == .object)
  .leaf call (.stream ((objects.flatMap r.source.entries).foldl (streamEntry r.source)
    ⟨kind, none, []⟩))

/-- A parallel step with a key for each branch. -/
def keyedParallel (r : Reader) (call object : Node) : Outline :=
  let options := (call.callArguments[1]?.map Node.unwrap).filter (·.kind == .object)
  .gather call (.parallel .all) (r.source.calleeOf call)
    (StepSettings.ofOptions r.source options).name
    ((r.source.entries object).map fun (key, value) =>
      [implicitStep value key (r.source.operationCallee value)])

def unknown (r : Reader) (statement : Node) : Outline :=
  .leaf statement (.unknown ⟨"unsupported statement: " ++ statement.kind.name,
    some (r.source.text statement)⟩)

/-! ## Statements and expressions -/

mutual

/-- The work in a statement. -/
def statement (r : Reader) (n : Node) : List Outline :=
  match n.kind with
  | .expressionStatement | .returnStatement | .throwStatement =>
    (n.parts.take 1).attach.flatMap fun ⟨e, _h⟩ => r.expression e
  | .lexicalDeclaration | .variableDeclaration =>
    n.declaredValues.attach.flatMap fun ⟨e, _h⟩ => r.expression e
  | .statementBlock => n.parts.attach.flatMap fun ⟨s, _h⟩ => r.statement s
  | .ifStatement =>
    [.ifElse n (r.source.headerText n .condition)
      ((n.inField .consequence).attach.flatMap fun ⟨s, _h⟩ => r.statement s)
      ((n.child? .alternative).attach.map fun ⟨clause, _hc⟩ =>
        clause.parts.attach.flatMap fun ⟨s, _h⟩ => r.statement s)]
  | .forStatement =>
    (n.inField .body).attach.map fun ⟨body, _h⟩ =>
      .loop n (.ofBound .forLoop none (r.source.countedBound? n)) (r.statement body)
  | .forInStatement =>
    (n.inField .body).attach.map fun ⟨body, _h⟩ =>
      .loop n (.overHeader r.source n body) (r.statement body)
  | .whileStatement | .doStatement =>
    (n.inField .body).attach.map fun ⟨body, _h⟩ =>
      .loop n (.ofBound .whileLoop none none) (r.statement body)
  | .switchStatement =>
    (n.inField .body).map fun _ =>
      .switch n (r.source.headerText n .value) (n.switchCases.attach.map fun ⟨c, _hc⟩ =>
        ⟨(c.child? .value).map r.source.text, c.kind == .switchDefault,
          (c.partsBut .value).attach.flatMap fun ⟨s, _h⟩ => r.statement s⟩)
  | .tryStatement => n.tryBlocks.attach.flatMap fun ⟨s, _h⟩ => r.statement s
  | .labeledStatement => (n.inField .body).attach.flatMap fun ⟨s, _h⟩ => r.statement s
  | kind => if kind.isInert then [] else [r.unknown n]
termination_by 5 * n.size
decreasing_by
  · have := Node.size_lt_of_mem_parts (List.mem_of_mem_take _h)
    omega
  · have := Node.size_lt_of_mem_declaredValues _h
    omega
  · have := Node.size_lt_of_mem_parts _h
    omega
  · have := Node.size_lt_of_mem_inField _h
    omega
  · have := Node.size_lt_of_mem_parts _h
    have := Node.size_lt_of_child? _hc
    omega
  · have := Node.size_lt_of_mem_inField _h
    omega
  · have := Node.size_lt_of_mem_inField _h
    omega
  · have := Node.size_lt_of_mem_inField _h
    omega
  · have := Node.size_lt_of_mem_partsBut _h
    have := Node.size_lt_of_mem_switchCases _hc
    omega
  · have := Node.size_lt_of_mem_tryBlocks _h
    omega
  · have := Node.size_lt_of_mem_inField _h
    omega

/-- The work in an expression. -/
def expression (r : Reader) (n : Node) : List Outline :=
  let e := n.unwrap
  if e.isFunctionScope ∨ e.kind = .classExpression then []
  else if e.kind = .ternaryExpression then
    ((e.inField .condition).attach.flatMap fun ⟨c, _h⟩ => r.expression c) ++
      [.ternary e (r.source.headerText e .condition)
        ((e.inField .consequence).attach.flatMap fun ⟨c, _h⟩ => r.expression c)
        ((e.inField .alternative).attach.flatMap fun ⟨c, _h⟩ => r.expression c)]
  else
    match if e.kind = .callExpression then r.classify e else none with
    | none => e.parts.attach.flatMap fun ⟨c, _h⟩ => r.expression c
    | some shape => r.call shape e
termination_by 5 * n.size + 2
decreasing_by
  all_goals have : e.size ≤ n.size := n.size_unwrap_le
  · have := Node.size_lt_of_mem_inField _h
    omega
  · have := Node.size_lt_of_mem_inField _h
    omega
  · have := Node.size_lt_of_mem_inField _h
    omega
  · have := Node.size_lt_of_mem_parts _h
    omega
  · have := n.size_unwrap_le
    omega

/-- The work of a call of a known shape. -/
def call (r : Reader) (shape : CallShape) (n : Node) : List Outline :=
  match shape with
  | .step => [r.step n StepSettings.ofOptions]
  | .method .retry => [r.step n StepSettings.withRetry]
  | .method .withTimeout => [r.step n StepSettings.withTimeout]
  | .method (.stream kind) => [r.stream n kind]
  | .sagaStep tryStep => [r.sagaStep n tryStep]
  | .workflowRef ref => [.leaf n (.workflowRef ref)]
  | .method .parallel =>
    match n.leadingObject? with
    | some object => [r.keyedParallel n object]
    | none => [.enclose n (.parallel .all) (r.source.calleeOf n)
        (r.source.leadingName? n.callArguments) (r.enclosed n)]
  | .method .race =>
    [.enclose n .race (r.source.calleeOf n) (r.source.leadingName? n.callArguments) (r.enclosed n)]
  | .helper (.conditional helper) =>
    [.guarded n (r.source.helperCondition helper n.callArguments)
      ((n.argumentAt 1).attach.flatMap fun ⟨a, _h⟩ => r.argument a)]
  | .helper (.combinator combinator) =>
    [.gather n combinator (r.source.calleeOf n) none
      (match _hb : n.branchElements? with
        | some elements => elements.attach.map fun ⟨x, _h⟩ => r.element x
        | none => (n.argumentAt 0).attach.map fun ⟨a, _h⟩ => r.argument a)]
  | .iteration kind =>
    (n.argumentAt 0).attach.map fun ⟨f, _h⟩ =>
      .loop n (.overElements r.source kind n.receiver?) (r.callback f)
termination_by 5 * n.size + 1
decreasing_by
  · omega
  · omega
  · have := Node.size_lt_of_mem_argumentAt _h
    omega
  · have := Node.size_lt_of_mem_branchElements? _hb _h
    omega
  · have := Node.size_lt_of_mem_argumentAt _h
    omega
  · have := Node.size_lt_of_mem_argumentAt _h
    omega

/-- What a method of the step function runs together: its callback, or else the arguments after the
first. -/
def enclosed (r : Reader) (n : Node) : List Outline :=
  match _hf : n.callArguments.find? Node.isFunctionLiteral with
  | some f => r.callback f
  | none => (n.callArguments.drop 1).attach.flatMap fun ⟨a, _h⟩ => r.expression a
termination_by 5 * n.size
decreasing_by
  · have := Node.size_lt_of_mem_callArguments (List.mem_of_find?_eq_some _hf)
    omega
  · have := Node.size_lt_of_mem_callArguments (List.mem_of_mem_drop _h)
    omega

/-- The body of a callback. -/
def callback (r : Reader) (f : Node) : List Outline :=
  (f.inField .body).attach.flatMap fun ⟨body, _h⟩ =>
    if body.kind = .statementBlock then r.statement body else r.expression body
termination_by 5 * f.size
decreasing_by
  all_goals
    have := Node.size_lt_of_mem_inField _h
    omega

/-- An argument of a helper: a callback, or any other expression. -/
def argument (r : Reader) (n : Node) : List Outline :=
  let a := n.unwrap
  if a.isFunctionLiteral then r.callback a else r.expression a
termination_by 5 * n.size + 3
decreasing_by
  all_goals
    have := n.size_unwrap_le
    omega

/-- One branch of a combinator. A call that means nothing by itself is a step. -/
def element (r : Reader) (n : Node) : List Outline :=
  let e := n.unwrap
  if e.kind = .callExpression ∧ (r.classify e).isNone then
    let callee := r.source.calleeOf e
    [implicitStep e (Text.lastSegment callee) callee]
  else r.argument e
termination_by 5 * n.size + 4
decreasing_by
  have := n.size_unwrap_le
  omega

end

end Reader

end FlowShape
