import FlowShape.Flow.Basic

/-!
# Flow nodes as JSON

A node is an object with its type, its tag and its own fields; what is absent is left out.
-/

namespace FlowShape

namespace Location

def toJson (l : Location) : Json :=
  .object ([("filePath", .string l.filePath), ("line", .nat l.line), ("column", .nat l.column)] ++
    Json.optional "endLine" .nat l.endLine ++ Json.optional "endColumn" .nat l.endColumn)

end Location

namespace Retry

def toJson (r : Retry) : Json :=
  .object (Json.optional "attempts" Numeric.toJson r.attempts ++
    Json.optional "backoff" .string r.backoff ++
    Json.optional "baseDelay" Numeric.toJson r.baseDelay ++
    Json.optional "maxDelay" Numeric.toJson r.maxDelay)

end Retry

namespace Timeout

def toJson (t : Timeout) : Json :=
  .object (Json.optional "ms" Numeric.toJson t.ms)

end Timeout

namespace Tag

def fields (t : Tag) : List (String × Json) :=
  ("id", .string t.id.text) :: (Json.optional "name" .string t.name ++
    Json.optional "key" .string t.key ++ Json.optional "location" Location.toJson t.location)

end Tag

namespace Step

def fields (s : Step) : List (String × Json) :=
  ("callee", .string s.callee) :: (Json.optional "retry" Retry.toJson s.retry ++
    Json.optional "timeout" Timeout.toJson s.timeout ++
    Json.optional "description" .string s.description ++
    Json.optional "markdown" .string s.markdown)

end Step

namespace SagaStep

def fields (s : SagaStep) : List (String × Json) :=
  [("callee", .string s.callee), ("hasCompensation", .bool s.hasCompensation)] ++
    Json.optional "compensationCallee" .string s.compensationCallee ++
    [("isTryStep", .bool s.isTryStep)]

end SagaStep

namespace Stream

def fields (s : Stream) : List (String × Json) :=
  ("streamType", .string s.kind.name) :: (Json.optional "namespace" .string s.channel ++
    if s.options.isEmpty then []
    else [("options", .object (s.options.map fun (key, value) => (key, value.toJson)))])

end Stream

namespace Repetition

/-- The fields of a loop, around those of its body. -/
def fields (r : Repetition) (body : Json) : List (String × Json) :=
  ("loopType", .string r.kind.name) :: (Json.optional "iterSource" .string r.iterSource ++
    [("body", body), ("boundKnown", .bool r.boundKnown)] ++
    Json.optional "boundCount" .nat r.boundCount)

end Repetition

namespace Flow

/-- A node of a given type. -/
def node (typeName : String) (tag : Tag) (fields : List (String × Json)) : Json :=
  .object (("type", .string typeName) :: (tag.fields ++ fields))

mutual

def toJson : Flow → Json
  | step tag s => node "step" tag s.fields
  | sagaStep tag s => node "saga-step" tag s.fields
  | sequence tag children => node "sequence" tag [("children", .array (toJsonAll children))]
  | parallel tag mode callee children =>
    node "parallel" tag [("children", .array (toJsonAll children)), ("mode", .string mode.name),
      ("callee", .string callee)]
  | race tag callee children =>
    node "race" tag [("children", .array (toJsonAll children)), ("callee", .string callee)]
  | stream tag s => node "stream" tag s.fields
  | conditional tag condition consequent alternate =>
    node "conditional" tag ([("condition", .string condition.text)] ++
      Json.optional "helper" (fun h => .string h.name) condition.helper ++
      [("consequent", .array (toJsonAll consequent))] ++
      (match alternate with
        | some body => [("alternate", .array (toJsonAll body))]
        | none => []) ++
      Json.optional "defaultValue" .string condition.defaultValue)
  | switch tag expression cases =>
    node "switch" tag [("expression", .string expression), ("cases", .array (toJsonCases cases))]
  | loop tag repetition body =>
    node "loop" tag (repetition.fields (.array (toJsonAll body)))
  | workflowRef tag ref =>
    node "workflow-ref" tag [("workflowName", .string ref.workflowName),
      ("resolved", .bool ref.resolved)]
  | unknown tag u =>
    node "unknown" tag (("reason", .string u.reason) ::
      Json.optional "sourceText" .string u.sourceText)

def toJsonAll : List Flow → List Json
  | [] => []
  | f :: fs => f.toJson :: toJsonAll fs

def toJsonCases : List (Case Flow) → List Json
  | [] => []
  | ⟨value, isDefault, body⟩ :: cases =>
    .object (Json.optional "value" .string value ++
      [("isDefault", .bool isDefault), ("body", .array (toJsonAll body))]) :: toJsonCases cases

end

end Flow

end FlowShape
