import FlowShape.Expr.Literal

/-!
# Bounds of counted loops

The number of rounds of `for (let i = a; i < b; i++)` with literal bounds, also for `<=`, `++i` and
`i += 1`. The number is worked out in floating point and cut off at `2 ^ 64 - 1`.
-/

namespace FlowShape

namespace Number

/-- A number plus an exact value. -/
def addRat (a : Number) (b : Rat) : Number :=
  match a with
  | finite value => round (value + b)
  | infinite negative => infinite negative

/-- The largest number of rounds that is told from larger ones. -/
def maxRounds : Nat := 18446744073709551615

/-- The whole part of a number, cut off at zero and at `maxRounds`. -/
def clampToNat : Number → Nat
  | finite value => min value.floor.toNat maxRounds
  | infinite negative => if negative then 0 else maxRounds

/-- The number of `k` with `start + k` below `stop`, or up to it. -/
def roundsBetween (start stop : Int) (inclusive : Bool) : Nat :=
  let difference := round (stop - start : Int)
  (if inclusive then difference.addRat 1 else difference).clampToNat

end Number

namespace Node

/-- The condition of a loop header. -/
def loopCondition? (statement : Node) : Option Node := do
  let condition ← statement.child? .condition
  if condition.kind = .expressionStatement then condition.firstPart? else some condition

/-- The number of elements written in an array literal. -/
def arrayBound? (n : Node) : Option Nat :=
  if n.unwrap.kind = .array then some n.unwrap.parts.length else none

end Node

namespace Source

/-- The whole number that an expression spells. -/
def wholeLiteral? (src : Source) (n : Node) : Option Int :=
  (src.numeric n).number?.bind Number.toInt?

def childText? (src : Source) (n : Node) (f : Field) : Option String :=
  (n.child? f).map src.text

/-- The name of the only variable that a loop header declares, and its first value. -/
def loopStart? (src : Source) (statement : Node) : Option (String × Node) := do
  let initializer ← statement.child? .initializer
  match initializer.parts.filter (·.kind == .variableDeclarator) with
  | [declarator] => return (← src.childText? declarator .name, ← declarator.child? .value)
  | _ => none

/-- The limit of a counter, and whether it is reached. -/
def loopLimit? (src : Source) (counter : String) (condition : Node) : Option (Node × Bool) := do
  guard (condition.kind = .binaryExpression)
  guard ((← src.childText? condition .left) = counter)
  let limit ← condition.child? .right
  match ← src.childText? condition .operator with
  | "<" => return (limit, false)
  | "<=" => return (limit, true)
  | _ => none

/-- Whether an expression adds one to a counter. -/
def stepsByOne (src : Source) (counter : String) (increment : Node) : Bool :=
  match increment.kind with
  | .updateExpression =>
    src.childText? increment .argument == some counter &&
      src.childText? increment .operator == some "++"
  | .augmentedAssignmentExpression =>
    src.childText? increment .left == some counter &&
      src.childText? increment .operator == some "+=" &&
      ((increment.child? .right).bind src.wholeLiteral?) == some 1
  | _ => false

/-- The number of rounds of a counted loop. -/
def countedBound? (src : Source) (statement : Node) : Option Nat := do
  let (counter, first) ← src.loopStart? statement
  let (limit, inclusive) ← src.loopLimit? counter (← statement.loopCondition?)
  guard (src.stepsByOne counter (← statement.child? .increment))
  return Number.roundsBetween (← src.wholeLiteral? first) (← src.wholeLiteral? limit) inclusive

end Source

end FlowShape
