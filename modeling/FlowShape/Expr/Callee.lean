import FlowShape.Source

/-!
# Names of callees

A callee is named by its chain of member accesses, joined by full stops, however the chain is
spelled.
-/

namespace FlowShape.Source

/-- The chain of member accesses of an expression. `step . retry`, `step?.retry` and `step!.retry`
are all `step.retry`; an expression that is no chain is named by its text. -/
def calleeText (src : Source) (n : Node) : String :=
  match n.kind with
  | .memberExpression =>
    match _h : n.child? .object, n.child? .property with
    | some object, some property => src.calleeText object ++ "." ++ src.text property
    | _, _ => src.text n
  | .nonNullExpression =>
    match _h : n.firstPart? with
    | some inner => src.calleeText inner
    | none => src.text n
  | _ => src.text n
termination_by n.size
decreasing_by
  · exact Node.size_lt_of_child? _h
  · exact Node.size_lt_of_firstPart? _h

/-- The name of what a call calls. -/
def calleeOf (src : Source) (call : Node) : String :=
  match call.child? .function with
  | some function => src.calleeText function.unwrap
  | none => ""

/-- The text of an expression without a pair of parentheses around it. -/
def unparenthesized (src : Source) (n : Node) : String :=
  if n.kind = .parenthesizedExpression then src.text (n.firstPart?.getD n) else src.text n

end FlowShape.Source
