import FlowShape.Source
import FlowShape.Tree.Site

/-!
# Lexical scope

Whether a name is declared in a scope around a site. The nodes that enclose a site are asked one by
one, the nearest first, up to the program.
-/

namespace FlowShape

namespace Node

/-- The patterns directly inside a binding pattern. -/
def innerPatterns (p : Node) : List Node :=
  match p.kind with
  | .pairPattern => (p.child? .value).toList
  | .objectAssignmentPattern | .assignmentPattern => (p.child? .left).toList
  | .requiredParameter | .optionalParameter => (p.child? .pattern).toList
  | .variableDeclarator => (p.child? .name).toList
  | .objectPattern | .arrayPattern | .restPattern | .formalParameters => p.parts
  | _ => []

theorem size_lt_of_mem_innerPatterns {p c : Node} (h : c ∈ p.innerPatterns) : c.size < p.size := by
  unfold innerPatterns at h
  split at h <;>
    first
    | exact size_lt_of_child? (Option.mem_toList.1 h)
    | exact size_lt_of_mem_parts h
    | cases h

/-- The patterns that are a name. -/
def isBindingName (p : Node) : Bool :=
  p.kind == .identifier || p.kind == .shorthandPropertyIdentifierPattern

end Node

namespace Source

/-- Whether a binding pattern binds a name. -/
def patternBinds (src : Source) (name : String) (p : Node) : Bool :=
  (p.isBindingName && src.text p == name) ||
    p.innerPatterns.attach.any fun ⟨inner, _⟩ => src.patternBinds name inner
termination_by p.size
decreasing_by exact Node.size_lt_of_mem_innerPatterns ‹_›

/-- Whether a `let`, `const` or `var` declaration binds a name. -/
def declarationBinds (src : Source) (name : String) (declaration : Node) : Bool :=
  declaration.parts.any fun d => d.kind == .variableDeclarator && src.patternBinds name d

/-- Whether the text of a child is a name. -/
def fieldIs (src : Source) (n : Node) (f : Field) (name : String) : Bool :=
  (n.child? f).any (src.text · == name)

/-- Whether a statement declares a name in the block it stands in. -/
def statementDeclares (src : Source) (name : String) (statement : Node) : Bool :=
  match statement.kind with
  | .lexicalDeclaration | .variableDeclaration => src.declarationBinds name statement
  | .functionDeclaration | .generatorFunctionDeclaration
  | .classDeclaration | .abstractClassDeclaration => src.fieldIs statement .name name
  | .exportStatement =>
    match _h : statement.child? .declaration with
    | some declaration => src.statementDeclares name declaration
    | none => false
  | _ => false
termination_by statement.size
decreasing_by exact Node.size_lt_of_child? _h

/-- Whether a `var` at or below the nodes of the agenda binds a name. The search does not go into
functions and class expressions; the parts of a node are put on the agenda one by one, so that it
comes to the last of them first. -/
def hoistedBindsAmong (src : Source) (name : String) : List Node → Bool
  | [] => false
  | n :: rest =>
    (n.kind == .variableDeclaration && src.declarationBinds name n) ||
      src.hoistedBindsAmong name
        ((n.parts.filter fun c => !c.isFunctionScope && c.kind != .classExpression).reverse ++ rest)
termination_by agenda => Node.sizeAll agenda
decreasing_by
  have := Node.sizeAll_filter_le (fun c => !c.isFunctionScope && c.kind != .classExpression) n.parts
  have := Node.sizeAll_filter_le Node.isPart n.children
  have := n.size_eq
  simp only [Node.sizeAll_append, Node.sizeAll_reverse, Node.sizeAll, Node.parts] at *
  omega

/-- Whether a `var` in a function body or a program, outside nested functions and class
expressions, binds a name. -/
def hoistedBinds (src : Source) (name : String) (body : Node) : Bool :=
  src.hoistedBindsAmong name [body]

/-- Whether a function binds a name inside its body: by a parameter, by its own name or by a
`var`. -/
def functionBinds (src : Source) (name : String) (f : Node) : Bool :=
  (f.child? .parameter).any (src.patternBinds name) ||
  (f.child? .parameters).any (src.patternBinds name) ||
  ((f.kind == .functionExpression || f.kind == .functionKeyword) && src.fieldIs f .name name) ||
  (f.child? .body).any (src.hoistedBinds name)

/-- Whether a node is a scope that binds a name. -/
def scopeBinds (src : Source) (name : String) (scope : Node) : Bool :=
  match scope.kind with
  | .program => scope.parts.any (src.statementDeclares name) || src.hoistedBinds name scope
  | .statementBlock | .switchCase | .switchDefault | .classBody =>
    scope.parts.any (src.statementDeclares name)
  | .forStatement => (scope.child? .initializer).any (src.statementDeclares name)
  | .forInStatement =>
    (scope.child? .kind).isSome && (scope.child? .left).any (src.patternBinds name)
  | .catchClause => (scope.child? .parameter).any (src.patternBinds name)
  | _ => scope.isFunctionScope && src.functionBinds name scope

/-- Whether one of the enclosing nodes, up to the program, binds a name. -/
def boundAbove (src : Source) (name : String) : List Frame → Bool
  | [] => false
  | frame :: above =>
    src.scopeBinds name frame.parent ||
      (frame.parent.kind != .program && src.boundAbove name above)

/-- Whether a name is declared in a scope around a site. -/
def isBound (src : Source) (name : String) (site : Site) : Bool :=
  src.boundAbove name site.above

end Source

end FlowShape
