import FlowShape.Json
import FlowShape.Number.Literal
import FlowShape.Source

/-!
# Literals

What is known of an expression without running it: the contents of a string literal and the number
that a numeric literal, possibly negated or in parentheses, spells. Anything else is *dynamic*.
-/

namespace FlowShape

/-- Stands for a text that only running the program would tell. -/
def dynamicText : String := "<dynamic>"

/-- A number in the source: a literal, or one that only running the program would tell. -/
inductive Numeric where
  | literal (number : Number)
  | dynamic
  deriving DecidableEq

namespace Numeric

def number? : Numeric → Option Number
  | literal number => some number
  | dynamic => none

def ofNumber? : Option Number → Numeric
  | some number => literal number
  | none => dynamic

def neg : Numeric → Numeric
  | literal number => literal number.neg
  | dynamic => dynamic

/-- Whole numbers below `2 ^ 53` in magnitude are written without a point; an infinity has no
number to write. -/
def toJson : Numeric → Json
  | literal (.finite value) =>
    if value.den = 1 ∧ value.num.natAbs < Nat.pow 2 53 then .integer value.num
    else .decimal (Number.shortest value)
  | literal (.infinite _) => .null
  | dynamic => .string dynamicText

end Numeric

namespace Source

/-- The contents of a string literal. A template literal has dynamic contents. -/
def stringLiteral? (src : Source) (n : Node) : Option String :=
  match n.kind with
  | .string => some (String.ofList (Text.unquote (src.text n).toList))
  | .templateString => some dynamicText
  | _ => none

/-- The contents of a string literal; dynamic for any other expression. -/
def staticString (src : Source) (n : Node) : String :=
  (src.stringLiteral? n).getD dynamicText

/-- The number that a token spells. -/
def numberToken (src : Source) (n : Node) : Numeric :=
  Numeric.ofNumber? (Number.ofLiteral? (src.text n).toList)

/-- The number that an expression spells. -/
def numeric (src : Source) (n : Node) : Numeric :=
  match n.kind with
  | .number => src.numberToken n
  | .unaryExpression =>
    match n.child? .operator, n.child? .argument with
    | some operator, some argument =>
      if src.text operator = "-" ∧ argument.kind = .number then (src.numberToken argument).neg
      else .dynamic
    | _, _ => .dynamic
  | .parenthesizedExpression =>
    match _h : n.firstPart? with
    | some inner => src.numeric inner
    | none => .dynamic
  | _ => .dynamic
termination_by n.size
decreasing_by exact Node.size_lt_of_firstPart? _h

end Source

end FlowShape
