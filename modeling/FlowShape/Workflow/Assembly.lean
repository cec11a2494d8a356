import FlowShape.Entry.Discovery
import FlowShape.Outline.Emission
import FlowShape.Outline.Reading
import FlowShape.Path
import FlowShape.Workflow.Basic

/-!
# Assembly of workflows

Builds one workflow for each entry point of a file. Entry points without a function literal for
their body give a warning instead and use up no identifiers.
-/

namespace FlowShape

/-- What the entry points of a file share. -/
structure Assembly where
  source : Source
  options : Options
  bindings : FileBindings
  analyzedAt : Timestamp

/-- What the arguments of an entry point say about the workflow. -/
structure Details where
  dependencies : List String := []
  errorTypes : List String := []
  description : Option String := none
  markdown : Option String := none

namespace Source

/-- The errors listed in an options object. -/
def errorTypes (src : Source) (options : Node) : List String :=
  match (src.property? options "errors").map Node.unwrap with
  | some list =>
    if list.kind = .array then
      list.parts.map fun e => (src.stringLiteral? e).getD (src.text e)
    else []
  | none => []

/-- A definition takes its dependencies and then its options; a run takes options only. -/
def details (src : Source) (entry : EntryPoint) : Details :=
  let objects := (entry.call.node.callArguments.map Node.unwrap).filter (·.kind == .object)
  let dependencies := if entry.kind.isDefinition then objects.head? else none
  let options := if entry.kind.isDefinition then objects[1]? else objects.head?
  { dependencies := (dependencies.map fun d => (src.entries d).map (·.1)).getD []
    errorTypes := (options.map src.errorTypes).getD []
    description := (options.bind (src.property? · "description")).bind src.stringLiteral?
    markdown := (options.bind (src.property? · "markdown")).bind src.stringLiteral? }

end Source

namespace Assembly

def emitter (a : Assembly) : Emitter :=
  ⟨a.source, a.options.includeLocations, a.options.reportUnknownStatements⟩

/-- The last part of the path, which names workflows that have no name of their own. -/
def fileName (a : Assembly) : String := (Path.fileName? a.source.path).getD a.source.path

/-- A definition is named by its variable, any other entry point by its kind and place. -/
def workflowName (a : Assembly) (entry : EntryPoint) : String :=
  let declared := if entry.kind.isDefinition then a.source.declaredName? entry.call else none
  declared.getD (entry.kind.name ++ "@" ++ a.fileName ++ ":" ++
    toString (a.source.line entry.call.node))

/-- What the callback of an entry point binds. -/
def context (a : Assembly) (entry : EntryPoint) (callback : Node) : Context :=
  let name := some (a.workflowName entry)
  if entry.kind.isSaga then { saga := a.source.sagaBinding? callback, workflowName := name }
  else
    let step := ((a.source.parameterBinding? callback "step").map (·.name)).getD "step"
    { step := some step, workflowName := name }

/-- The outline of the body of an entry point. -/
def outline (a : Assembly) (entry : EntryPoint) (callback : Node) : List Outline :=
  Reader.callback ⟨a.source, a.bindings, a.context entry callback⟩ callback

/-- The workflow of an entry point after a number of used identifiers, and how many are used
then. -/
def workflow (a : Assembly) (entry : EntryPoint) (callback : Node) (used : Nat) : Workflow × Nat :=
  let (children, ledger) := (a.emitter.body (a.outline entry callback)).run { used }
  let details := a.source.details entry
  ({ root := {
      id := Id.next ledger.used "workflow"
      name := a.workflowName entry
      source := entry.kind
      dependencies := details.dependencies
      errorTypes := details.errorTypes
      children
      description := details.description
      markdown := details.markdown
      location := a.emitter.location entry.call.node }
     metadata := {
      analyzedAt := a.analyzedAt
      filePath := a.source.path
      warnings := ledger.warnings
      stats := ledger.stats }
     references := [] },
    ledger.used + 1)

/-- The callback of an entry point, if it is a function literal. -/
def bodyOf? (entry : EntryPoint) : Option Node := entry.callback.filter Node.isFunctionLiteral

def callbackNotFound (a : Assembly) (entry : EntryPoint) : Warning :=
  .callbackNotFound (a.workflowName entry) entry.kind (a.emitter.location entry.call.node)

/-- The workflows and warnings of entry points one after the other, and how many identifiers are
used then. -/
def assemble (a : Assembly) : List EntryPoint → Nat → List Workflow × List Warning × Nat
  | [], used => ([], [], used)
  | entry :: rest, used =>
    match bodyOf? entry with
    | none =>
      let (workflows, warnings, used) := a.assemble rest used
      (workflows, a.callbackNotFound entry :: warnings, used)
    | some callback =>
      let (workflow, used) := a.workflow entry callback used
      let (workflows, warnings, used) := a.assemble rest used
      (workflow :: workflows, warnings, used)

end Assembly

end FlowShape
