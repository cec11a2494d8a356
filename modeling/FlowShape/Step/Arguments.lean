import FlowShape.Tree.Node

/-!
# Arguments of step-like calls

A step is called as `step(operation, options)` or, with a name in front, as
`step("id", operation, options)`.
-/

namespace FlowShape

structure StepArguments where
  id : Option Node
  operation : Option Node
  options : Option Node

namespace StepArguments

/-- The operation and, if it is an object literal, the options that follow it. -/
def ofRest (id : Option Node) (rest : List Node) : StepArguments where
  id := id
  operation := rest[0]?
  options := (rest[1]?.map Node.unwrap).filter (·.kind == .object)

/-- A leading string is the name of the step unless it is the only argument. -/
def ofList (arguments : List Node) : StepArguments :=
  match arguments with
  | first :: second :: rest =>
    if first.kind = .string ∨ first.kind = .templateString then ofRest (some first) (second :: rest)
    else ofRest none arguments
  | _ => ofRest none arguments

end StepArguments

end FlowShape
