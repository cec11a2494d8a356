import FlowShape.Call.Shape
import FlowShape.Options
import FlowShape.Scope.Import
import FlowShape.Scope.Lexical

/-!
# Discovery of entry points

The calls of a file that define a workflow or run one. A definition is recognised by its name alone;
a call that runs a workflow only if the function is imported and no local declaration hides it.
-/

namespace FlowShape

structure EntryPoint where
  kind : EntryKind
  call : Site
  /-- The expression that holds the workflow's body. It need not be a function literal. -/
  callback : Option Node

namespace Node

/-- The first argument of a call that is a function literal. -/
def callbackArgument? (call : Node) : Option Node :=
  (call.callArguments.map unwrap).find? isFunctionLiteral

end Node

namespace Source

/-- The name that a call calls, if it is a bare identifier. -/
def identifierCallee? (src : Source) (call : Node) : Option String := do
  let function ← call.child? .function
  if function.kind = .identifier then some (src.text function) else none

/-- The variable declared with the value at the bottom of the frames. -/
def declaredNameAbove? (src : Source) : List Frame → Option String
  | [] => none
  | frame :: above =>
    if frame.parent.kind.isTransparent then src.declaredNameAbove? above
    else if frame.parent.kind = .variableDeclarator ∧ frame.isField .value then
      ((frame.parent.child? .name).filter (·.kind == .identifier)).map src.text
    else none

/-- The name of the variable that a call is the value of. -/
def declaredName? (src : Source) (site : Site) : Option String :=
  src.declaredNameAbove? site.above

/-- The local names of the function that makes an entry point of a kind. -/
def entryNames (src : Source) (tree : Node) (kind : EntryKind) (assumeImported : Bool) :
    List String :=
  let imported := src.importedNames tree kind.name
  if kind.isDefinition || assumeImported then Names.insert kind.name imported else imported

/-- Whether a call calls one of the given names. -/
def callsOneOf (src : Source) (names : List String) (call : Node) : Bool :=
  (src.identifierCallee? call).any (· ∈ names)

/-- The callback of the first call of a name that has one. -/
def invocationCallback? (src : Source) (tree : Node) (name : String) : Option Node :=
  ((Site.calls tree).filter fun c => src.identifierCallee? c.node == some name).findSome?
    (·.node.callbackArgument?)

/-- A definition takes its callback as an argument, or is called with it later. -/
def definition (src : Source) (tree : Node) (kind : EntryKind) (call : Site) : EntryPoint where
  kind := kind
  call := call
  callback := call.node.callbackArgument? <|>
    (src.declaredName? call).bind (src.invocationCallback? tree)

def definitions (src : Source) (tree : Node) (kind : EntryKind) : List EntryPoint :=
  let names := src.entryNames tree kind false
  ((Site.calls tree).filter fun c => src.callsOneOf names c.node).map (src.definition tree kind)

/-- Whether the name that a call calls is declared around it. -/
def isHidden (src : Source) (call : Site) : Bool :=
  (src.identifierCallee? call.node).any fun name => src.isBound name call

def runs (src : Source) (tree : Node) (kind : EntryKind) (assumeImported : Bool) :
    List EntryPoint :=
  let names := src.entryNames tree kind assumeImported
  ((Site.calls tree).filter fun c => src.callsOneOf names c.node && !src.isHidden c).map fun c =>
    ⟨kind, c, c.node.callArguments.head?.map Node.unwrap⟩

/-- The entry points of one kind in document order. -/
def entriesOf (src : Source) (tree : Node) (assumeImported : Bool) (kind : EntryKind) :
    List EntryPoint :=
  if kind.isDefinition then src.definitions tree kind else src.runs tree kind assumeImported

/-- The entry points of a file, kind by kind. -/
def entryPoints (src : Source) (tree : Node) (options : Options) : List EntryPoint :=
  (EntryKind.all.filter options.includes).flatMap (src.entriesOf tree options.assumeImported)

/-- The names of all workflows that a file defines. -/
def definitionNames (src : Source) (tree : Node) : List String :=
  Names.ofList <| [EntryKind.createWorkflow, .createSagaWorkflow].flatMap fun kind =>
    (src.definitions tree kind).filterMap fun entry => src.declaredName? entry.call

/-- The names that matter in a whole file, whatever kinds of entry points are looked for. -/
def fileBindings (src : Source) (tree : Node) (options : Options) : FileBindings where
  workflows := src.definitionNames tree
  runners := Names.ofList <| [EntryKind.run, .runSaga].flatMap fun kind =>
    src.entryNames tree kind options.assumeImported

end Source

end FlowShape
