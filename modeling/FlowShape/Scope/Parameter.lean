import FlowShape.Expr.Object
import FlowShape.Text.Pattern

/-!
# Bindings of callback parameters

A workflow hands its callback the step function, plainly or inside an object that the callback takes
apart. A saga hands over an object with two kinds of steps.
-/

namespace FlowShape

/-- How the first parameter of a callback binds a capability. -/
inductive ParameterBinding where
  /-- The parameter itself, as in `(step) => …`. -/
  | plain (name : String)
  /-- The local name of one key, as in `({ step: s }) => …`. -/
  | entry (name : String)
  deriving DecidableEq

namespace ParameterBinding

def name : ParameterBinding → String
  | plain name | entry name => name

end ParameterBinding

/-- How saga steps are reached from a saga callback. -/
inductive SagaBinding where
  /-- As methods of an object, as in `(saga) => saga.step(…)`. -/
  | member (object : String)
  /-- By local names, as in `({ step, tryStep: attempt }) => …`. -/
  | destructured (step tryStep : Option String)
  deriving DecidableEq

namespace Source

/-- The local name on the right of a colon: an identifier, possibly with a default value. -/
def renamed? (src : Source) (property : Node) : Option String := do
  let value ← property.child? .value
  let target ← if value.kind = .assignmentPattern then value.child? .left else some value
  if target.kind = .identifier then some (src.text target) else none

/-- The local name that the properties of an object pattern give to a key. The first property of
that key decides. -/
def aliasIn? (src : Source) (key : String) : List Node → Option String
  | [] => none
  | property :: rest =>
    match property.kind with
    | .shorthandPropertyIdentifierPattern =>
      if src.text property = key then some key else src.aliasIn? key rest
    | .objectAssignmentPattern =>
      match property.child? .left with
      | some left => if src.text left = key then some key else src.aliasIn? key rest
      | none => none
    | .pairPattern =>
      if (property.child? .key).any (src.propertyKey · == key) then src.renamed? property
      else src.aliasIn? key rest
    | _ => src.aliasIn? key rest

/-- The local name that an object pattern gives to a key. -/
def destructuredAlias? (src : Source) (pattern : Node) (key : String) : Option String :=
  src.aliasIn? key pattern.parts

/-- How the first parameter of a callback binds a key. -/
def parameterBinding? (src : Source) (callback : Node) (key : String) :
    Option ParameterBinding := do
  let pattern ← callback.firstParameter?
  match pattern.kind with
  | .identifier => some (.plain (src.text pattern))
  | .objectPattern => (src.destructuredAlias? pattern key).map .entry
  | _ => none

/-- How the first parameter of a callback binds the steps of a saga. -/
def sagaBinding? (src : Source) (callback : Node) : Option SagaBinding := do
  let pattern ← callback.firstParameter?
  match pattern.kind with
  | .identifier => some (.member (src.text pattern))
  | .objectPattern =>
    some (.destructured (src.destructuredAlias? pattern "step")
      (src.destructuredAlias? pattern "tryStep"))
  | _ => none

end Source

namespace SagaBinding

/-- Whether a callee is a saga step, and if so whether it is one that may fail. -/
def stepKind? (binding : SagaBinding) (callee : String) : Option Bool :=
  match binding with
  | .member object =>
    match Text.memberOf? object callee with
    | some "step" => some false
    | some "tryStep" => some true
    | _ => none
  | .destructured step tryStep =>
    if step = some callee then some false
    else if tryStep = some callee then some true
    else none

end SagaBinding

end FlowShape
