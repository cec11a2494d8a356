import FlowShape.Tree.Site

/-!
# Building syntax trees

Nodes put together by hand, as a parser would give them. Punctuation is left unnamed, offsets count
the characters of plain sources, and a builder of a larger construct takes the place where it starts
or the node it is around. The sources that theorems are tried at are built with them.
-/

namespace FlowShape.Sample

def token (text : String) (start : Nat) : Node :=
  .mk { kind := .other text, start, stop := start + text.length, named := false } []

def part (kind : Kind) (start stop : Nat) (children : List Node) : Node :=
  .mk { kind, start, stop } children

def role (field : Field) (kind : Kind) (start stop : Nat) (children : List Node) : Node :=
  .mk { kind, start, stop, field := some field } children

def roleToken (field : Field) (text : String) (start : Nat) : Node :=
  .mk { kind := .other text, start, stop := start + text.length, named := false,
        field := some field } []

def keyword (kind : Kind) (start : Nat) : Node :=
  .mk { kind, start, stop := start + kind.name.length, named := false } []

def inRole (field : Field) : Node → Node
  | .mk label children => .mk { label with field := some field } children

/-- A call of `step` with a name of one letter. -/
def stepCall (start : Nat) : Node :=
  part .callExpression start (start + 7) [
    role .function .identifier start (start + 4) [],
    role .arguments .arguments (start + 4) (start + 7) [
      token "(" (start + 4), part .identifier (start + 5) (start + 6) [], token ")" (start + 6)]]

/-- A condition in parentheses. -/
def condition (start : Nat) (inner : Node) : Node :=
  role .condition .parenthesizedExpression start (inner.stop + 1) [
    token "(" start, inner, token ")" inner.stop]

/-- A function of the parameter `step`, up to its body ten characters further on. -/
def stepFunction (start : Nat) (body : Node) : Node :=
  part .arrowFunction start body.stop [
    role .parameters .formalParameters start (start + 6) [
      token "(" start,
      part .requiredParameter (start + 1) (start + 5) [
        role .pattern .identifier (start + 1) (start + 5) []],
      token ")" (start + 5)],
    token "=>" (start + 7),
    inRole .body body]

/-- A statement that calls a function with one argument. -/
def callStatement (start : Nat) (argument : Node) : Node :=
  part .expressionStatement start (argument.stop + 2) [
    part .callExpression start (argument.stop + 1) [
      role .function .identifier start (argument.start - 1) [],
      role .arguments .arguments (argument.start - 1) (argument.stop + 1) [
        token "(" (argument.start - 1), argument, token ")" argument.stop]],
    token ";" (argument.stop + 1)]

/-- A call without arguments of a function with a name of one letter. -/
def emptyCall (start : Nat) : Node :=
  part .callExpression start (start + 3) [
    role .function .identifier start (start + 1) [],
    role .arguments .arguments (start + 1) (start + 3) [
      token "(" (start + 1), token ")" (start + 2)]]

/-- A loop body that is a call of `step`. -/
def loopBody (start : Nat) : Node :=
  role .body .expressionStatement start (start + 8) [stepCall start, token ";" (start + 7)]

/-- The function `x => step(x)`. -/
def mapCallback (start : Nat) : Node :=
  part .arrowFunction start (start + 12) [
    role .parameter .identifier start (start + 1) [],
    token "=>" (start + 2),
    inRole .body (stepCall (start + 5))]

def digit (start : Nat) : Node := part .number start (start + 1) []

/-- An entry of an object literal, right before its value. -/
def entryOf (key : String) (value : Node) : Node :=
  let start := value.start - 1 - key.length
  part .pair start value.stop [
    role .key (.other "property_identifier") start (value.start - 1) [],
    token ":" (value.start - 1), inRole .value value]

/-- An object literal around its entries. -/
def objectOf (first : Node) (rest : List Node) : Node :=
  let stop := (rest.getLastD first).stop
  part .object (first.start - 1) (stop + 1) (token "\x7b" (first.start - 1) :: first ::
    (rest.flatMap fun e => [token "," (e.start - 1), e]) ++ [token "\x7d" stop])

/-- The site below another that the places of children lead to. -/
def follow (s : Site) : List Nat → Site
  | [] => s
  | i :: places => (s.node.children[i]?).elim s fun c => follow ⟨c, ⟨s.node, i⟩ :: s.above⟩ places

end FlowShape.Sample
