import FlowShape.Proofs.Step.Settings
import FlowShape.Proofs.Tree.Builder
import FlowShape.Workflow.Assembly

/-!
# Repeated keys

An object literal may give several values to one key. Settings, retries and streams are read entry
by entry and take the last value that they heed. Timeouts, compensations and the details of entry
points are looked up and take the first one, so the two agree just if no key is repeated.
-/

namespace FlowShape

theorem head?_eq_getLast?_iff {α : Type} {xs : List α} (h : xs.Nodup) :
    xs.head? = xs.getLast? ↔ xs.length ≤ 1 := by
  match xs with
  | [] | [x] => simp
  | x :: y :: rest =>
    have hx : x ∉ y :: rest := (List.nodup_cons.1 h).1
    have hlast : (y :: rest).getLast (List.cons_ne_nil y rest) ∈ y :: rest := List.getLast_mem _
    grind

namespace Source

variable (src : Source) (object : Node) (key : String)

/-- Values that stand at different places are told apart. -/
theorem property?_eq_getLast?_iff
    (h : ((src.values object [key]).map Node.start).Nodup) :
    src.property? object key = (src.values object [key]).getLast? ↔
      (src.values object [key]).length ≤ 1 := by
  rw [property?_eq_head?, head?_eq_getLast?_iff h.of_map]

/-- The errors that a value of `errors` lists. -/
def errorsOf (value : Node) : List String :=
  if value.unwrap.kind = .array then
    value.unwrap.parts.map fun e => (src.stringLiteral? e).getD (src.text e)
  else []

theorem errorTypes_eq : src.errorTypes object =
    ((src.values object ["errors"]).head?.map src.errorsOf).getD [] := by
  rw [errorTypes, property?_eq_head?]
  cases (src.values object ["errors"]).head? <;> rfl

end Source

/-- The object literals among the arguments of a call. -/
def Node.objects (call : Node) : List Node :=
  (call.callArguments.map unwrap).filter (·.kind == .object)

/-- The options of an entry point. -/
def EntryPoint.options? (entry : EntryPoint) : Option Node :=
  if entry.kind.isDefinition then entry.call.node.objects[1]? else entry.call.node.objects.head?

namespace Reader

/-- Where a key is repeated, the last value that is heeded counts. -/
structure TakesLast (r : Reader) : Prop where
  settings (object : Node) :
    StepSettings.read r.source object = .ofValues r.source (r.source.values object)
  retry (object : Node) :
    Retry.read? r.source object =
      if r.source.values object Retry.keys = [] then none
      else some (.ofValues r.source (r.source.values object))
  stream (call : Node) (kind : StreamKind) :
    ∃ stream, r.stream call kind = .leaf call (.stream stream) ∧ stream.kind = kind ∧
      stream.channel = (valuesOf ["namespace"] (call.objects.flatMap r.source.entries)).getLast?.map
        (fun v => r.source.staticString v.unwrap) ∧
      ∀ key, stream.options.lookup key =
        if key = "namespace" then none
        else ((valuesOf [key] (call.objects.flatMap r.source.entries)).filter
          Stream.keepsOption).getLast?.map fun v => r.source.numeric v.unwrap

/-- Where a key is repeated, the first value counts, heeded or not. -/
structure TakesFirst (r : Reader) : Prop where
  property (object : Node) (key : String) :
    r.source.property? object key = (r.source.values object [key]).head?
  timeout (object : Node) :
    Timeout.read? r.source object =
      (r.source.values object ["ms"]).head?.map fun v => ⟨some (r.source.numeric v.unwrap)⟩
  compensation (call : Node) (tryStep : Bool) :
    ∃ name key step, r.sagaStep call tryStep = .leaf call (.sagaStep name key step) ∧
      let compensation := (StepArguments.ofList call.callArguments).options.bind fun o =>
        (r.source.values o ["compensate"]).head?
      step.hasCompensation = compensation.isSome ∧
      step.compensationCallee = compensation.map r.source.operationCallee
  details (entry : EntryPoint) :
    let first (key : String) := entry.options?.bind fun o => (r.source.values o [key]).head?
    (r.source.details entry).description = (first "description").bind r.source.stringLiteral? ∧
    (r.source.details entry).markdown = (first "markdown").bind r.source.stringLiteral? ∧
    (r.source.details entry).errorTypes = ((first "errors").map r.source.errorsOf).getD []

theorem takesLast (r : Reader) : r.TakesLast where
  settings := StepSettings.read_eq r.source
  retry := Retry.read?_eq r.source
  stream call kind := ⟨.ofEntries r.source kind (call.objects.flatMap r.source.entries), rfl,
    Stream.kind_ofEntries _ _ _, Stream.channel_ofEntries _ _ _,
    Stream.lookup_options_ofEntries _ _ _⟩

theorem takesFirst (r : Reader) : r.TakesFirst where
  property := r.source.property?_eq_head?
  timeout := Timeout.read?_eq r.source
  compensation call tryStep := by
    refine ⟨_, _, _, rfl, ?_⟩
    simp only [r.source.property?_eq_head?, and_self]
  details entry := by
    have herrors : (r.source.details entry).errorTypes =
        (entry.options?.map r.source.errorTypes).getD [] := rfl
    refine ⟨?_, ?_, ?_⟩
    · simp only [← r.source.property?_eq_head?]
      rfl
    · simp only [← r.source.property?_eq_head?]
      rfl
    · rw [herrors]
      cases entry.options? with
      | none => rfl
      | some o => exact r.source.errorTypes_eq o

/-- Settings, retries and streams take the last value of a key. Timeouts, compensations and the
details of entry points take the first one, which is another one just if the key is repeated. -/
theorem repeated_keys_are_resolved_apart (r : Reader) :
    r.TakesLast ∧ r.TakesFirst ∧
    ∀ object key, ((r.source.values object [key]).map Node.start).Nodup →
      (r.source.property? object key = (r.source.values object [key]).getLast? ↔
        (r.source.values object [key]).length ≤ 1) :=
  ⟨r.takesLast, r.takesFirst, r.source.property?_eq_getLast?_iff⟩

end Reader

namespace Sample

def repeatedSource : Source := .ofString "sample.ts" "\x7bms:1,ms:2\x7d"

def repeatedObject : Node := objectOf (entryOf "ms" (digit 4)) [entryOf "ms" (digit 9)]

end Sample

namespace Reader

theorem repeated_keys_are_resolved_apart_ms :
    let src := Sample.repeatedSource
    let object := Sample.repeatedObject
    ((src.values object ["ms"]).map Node.start).Nodup ∧
      src.property? object "ms" ≠ (src.values object ["ms"]).getLast? := by
  intro src object
  have hplaces : ((src.values object ["ms"]).map Node.start).Nodup := by decide +kernel
  have hrepeated : ¬(src.values object ["ms"]).length ≤ 1 := by decide +kernel
  obtain ⟨-, -, hlast⟩ := repeated_keys_are_resolved_apart ⟨src, {}, {}⟩
  exact ⟨hplaces, fun h => hrepeated ((hlast object "ms" hplaces).1 h)⟩

/-- A timeout is not told by the last of its values. -/
theorem later_timeouts_are_overlooked :
    Timeout.read? Sample.repeatedSource Sample.repeatedObject ≠
      (Sample.repeatedSource.values Sample.repeatedObject ["ms"]).getLast?.map fun v =>
        ⟨some (Sample.repeatedSource.numeric v.unwrap)⟩ := by
  decide +kernel

end Reader

end FlowShape
