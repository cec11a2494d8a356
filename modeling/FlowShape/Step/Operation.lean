import FlowShape.Expr.Callee
import FlowShape.Expr.Literal
import FlowShape.Tree.Search

/-!
# Operations

A step is named by the operation it runs: the callee of a call, or what a function literal returns.
-/

namespace FlowShape

namespace Node

/-- The expression of the first `return` of a function body. -/
def firstReturned? (body : Node) : Option Node :=
  (body.findOutsideFunctions? (·.kind == .returnStatement)).bind firstPart?

/-- The expression that tells what a function body does: that of the first `return`, or else the
first call. -/
def resultOf? (body : Node) : Option Node :=
  body.firstReturned? <|> body.findOutsideFunctions? (·.kind == .callExpression)

theorem size_le_of_resultOf? {body e : Node} (h : body.resultOf? = some e) :
    e.size ≤ body.size := by
  unfold resultOf? at h
  cases hr : body.firstReturned? with
  | some r =>
    simp only [hr, Option.orElse_eq_orElse, Option.orElse_some, Option.some.injEq] at h
    subst h
    obtain ⟨m, hm, hp⟩ := Option.bind_eq_some_iff.1 hr
    have := size_le_of_findOutsideFunctions? hm
    have := size_lt_of_firstPart? hp
    omega
  | none =>
    simp only [hr, Option.orElse_eq_orElse, Option.orElse_none] at h
    exact size_le_of_findOutsideFunctions? h

end Node

namespace Source

/-- The name of the operation that an expression runs. -/
def operationCallee (src : Source) (n : Node) : String :=
  let op := n.unwrap
  if op.kind = .callExpression ∨ op.kind = .newExpression then
    match op.child? .function <|> op.child? .constructor with
    | some callee => src.calleeText callee.unwrap
    | none => src.text op
  else if op.isFunctionLiteral ∨ op.kind = .methodDefinition then
    match _hb : op.child? .body with
    | none => dynamicText
    | some body =>
      if body.kind = .statementBlock then
        match _hr : body.resultOf? with
        | some e => src.operationCallee e
        | none => dynamicText
      else src.operationCallee body
  else if op.kind = .identifier ∨ op.kind = .memberExpression then src.calleeText op
  else src.text op
termination_by n.size
decreasing_by
  all_goals
    have := n.size_unwrap_le
    have := Node.size_lt_of_child? _hb
    simp only [op] at *
  · have := Node.size_le_of_resultOf? _hr
    omega
  · omega

end Source

end FlowShape
