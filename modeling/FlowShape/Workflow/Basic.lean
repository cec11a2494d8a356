import FlowShape.Names
import FlowShape.Timestamp
import FlowShape.Workflow.Stats
import FlowShape.Workflow.Warning

/-!
# Workflows

The report on one workflow: its entry point, its body as flow nodes, and what was met on the way.
-/

namespace FlowShape

structure WorkflowRoot where
  id : Id
  name : String
  source : EntryKind
  dependencies : List String
  errorTypes : List String
  children : List Flow
  description : Option String
  markdown : Option String
  location : Option Location

structure Metadata where
  analyzedAt : Timestamp
  filePath : String
  warnings : List Warning
  stats : Stats
  deriving DecidableEq

/-- A workflow; `references` holds the workflows of the same file that it calls, by name. -/
structure Workflow where
  root : WorkflowRoot
  metadata : Metadata
  references : List (String × Workflow)

namespace Workflow

def name (w : Workflow) : String := w.root.name

/-- All flow nodes of a workflow, parents first. -/
def walk (w : Workflow) : List Flow := w.root.children.flatMap Flow.walk

def stepCount (w : Workflow) : Nat := w.walk.countP Flow.isStep

/-- The workflow that a node calls, if it is one of the same file. -/
def resolvedRef? : Flow → Option String
  | .workflowRef _ ⟨name, true⟩ => some name
  | _ => none

/-- The workflows of the same file that a workflow calls, each once in the order of first calls. -/
def referenced (w : Workflow) : List String := (w.walk.filterMap resolvedRef?).eraseDups

/-- The workflows by their name that `w` calls among `targets`, the first of a name counting. -/
def referencesAmong (targets : List Workflow) (w : Workflow) : List (String × Workflow) :=
  (w.referenced.filter (· != w.name)).foldl
    (fun found name =>
      match targets.find? (·.name == name) with
      | some target => Table.insert name { target with references := [] } found
      | none => found)
    []

/-- Gives each workflow those of the list that it calls. -/
def resolve (workflows : List Workflow) : List Workflow :=
  workflows.map fun w => { w with references := w.referencesAmong workflows }

end Workflow

/-! ## JSON -/

namespace WorkflowRoot

def toJson (r : WorkflowRoot) : Json :=
  .object ([("type", .string "workflow"), ("id", .string r.id.text), ("name", .string r.name),
    ("source", .string r.source.name), ("dependencies", .strings r.dependencies),
    ("errorTypes", .strings r.errorTypes), ("children", .array (Flow.toJsonAll r.children))] ++
    Json.optional "description" .string r.description ++
    Json.optional "markdown" .string r.markdown ++
    Json.optional "location" Location.toJson r.location)

end WorkflowRoot

namespace Metadata

def toJson (m : Metadata) : Json :=
  .object [("analyzedAt", .string m.analyzedAt.text), ("filePath", .string m.filePath),
    ("warnings", .array (m.warnings.map Warning.toJson)), ("stats", m.stats.toJson)]

end Metadata

namespace Workflow

mutual

def toJson : Workflow → Json
  | ⟨root, metadata, references⟩ =>
    .object ([("root", root.toJson), ("metadata", metadata.toJson)] ++
      (if references.isEmpty then [] else [("references", .object (toJsonFields references))]))

def toJsonFields : List (String × Workflow) → List (String × Json)
  | [] => []
  | (name, w) :: rest => (name, w.toJson) :: toJsonFields rest

end

end Workflow

end FlowShape
