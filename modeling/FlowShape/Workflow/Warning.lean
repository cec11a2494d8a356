import FlowShape.Entry.Kind
import FlowShape.Flow.Json

/-!
# Warnings

What an analysis has to say about single entry points and calls. A warning never stops it.
-/

namespace FlowShape

inductive WarningCode where
  | callbackNotFound
  | unresolvedWorkflowRef
  deriving DecidableEq

namespace WarningCode

def name : WarningCode → String
  | callbackNotFound => "CALLBACK_NOT_FOUND"
  | unresolvedWorkflowRef => "UNRESOLVED_WORKFLOW_REF"

/-- The name of the code on the command line. -/
def title : WarningCode → String
  | callbackNotFound => "CallbackNotFound"
  | unresolvedWorkflowRef => "UnresolvedWorkflowRef"

end WarningCode

structure Warning where
  code : WarningCode
  message : String
  location : Option Location
  deriving DecidableEq

namespace Warning

/-- An entry point without a function literal for its body; it gives no workflow. -/
def callbackNotFound (workflow : String) (kind : EntryKind) (location : Option Location) :
    Warning :=
  ⟨.callbackNotFound, "`" ++ workflow ++ "` (" ++ kind.name ++ ") has no function-literal callback",
    location⟩

/-- A call that looks like one of a workflow, but of none in the file. -/
def unresolvedWorkflowRef (workflow : String) (location : Option Location) : Warning :=
  ⟨.unresolvedWorkflowRef,
    "`" ++ workflow ++ "` looks like a workflow but is not defined in this file", location⟩

def toJson (w : Warning) : Json :=
  .object ([("code", .string w.code.name), ("message", .string w.message)] ++
    Json.optional "location" Location.toJson w.location)

/-- How a warning starts on the command line. -/
def mark : String := "warning["

/-- A warning as the command line prints it. A name in it may hold line breaks. -/
def notice (w : Warning) : String :=
  mark ++ w.code.title ++ "]: " ++ w.message ++ "\n"

end Warning

end FlowShape
