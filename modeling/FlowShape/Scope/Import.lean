import FlowShape.Expr.Literal
import FlowShape.Expr.Object
import FlowShape.Names

/-!
# Imports

The local names that a file gives to an export of the workflow library.
-/

namespace FlowShape

/-- The modules of the workflow library. -/
def isLibraryModule (name : String) : Bool :=
  name == "awaitly" || "awaitly/".isPrefixOf name || "@awaitly/".isPrefixOf name

namespace Node

/-- Whether a keyword `type` marks an import as one of types only. -/
def hasTypeModifier (n : Node) : Bool :=
  n.children.any fun c => !c.label.named && c.kind == .typeKeyword

/-- The parts of a given kind. -/
def partsOf (n : Node) (kind : Kind) : List Node := n.parts.filter (·.kind == kind)

/-- The names between the braces of an import statement. -/
def importSpecifiers (statement : Node) : List Node :=
  (statement.partsOf .importClause).flatMap fun clause =>
    (clause.partsOf .namedImports).flatMap fun names => names.partsOf .importSpecifier

end Node

namespace Source

/-- Whether a statement imports values from the workflow library. -/
def isLibraryImport (src : Source) (statement : Node) : Bool :=
  statement.kind == .importStatement && !statement.hasTypeModifier &&
    (((statement.child? .source).bind src.stringLiteral?).map isLibraryModule).getD false

/-- The local name that a specifier gives to an export. -/
def localName? (src : Source) (exported : String) (specifier : Node) : Option String := do
  let name ← specifier.child? .name
  if !specifier.hasTypeModifier && src.propertyKey name == exported then
    some (src.text ((specifier.child? .aliasName).getD name))
  else none

/-- The local names of an export of the workflow library. -/
def importedNames (src : Source) (tree : Node) (exported : String) : List String :=
  Names.ofList <| (tree.parts.filter src.isLibraryImport).flatMap fun statement =>
    statement.importSpecifiers.filterMap (src.localName? exported)

end Source

end FlowShape
