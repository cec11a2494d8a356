import FlowShape.Call.Shape

/-!
# What a shape tells of a call

The rule that gave a call its shape, and with it the callee and the arguments that a call of that
shape has.
-/

namespace FlowShape

theorem Text.eq_of_memberOf? {head text name : String} (h : memberOf? head text = some name) :
    text = head ++ "." ++ name := by
  simp only [memberOf?, Option.ite_none_right_eq_some, Option.some.injEq] at h
  obtain ⟨hstarts, rfl⟩ := h
  obtain ⟨rest, hrest⟩ := List.isPrefixOf_iff_prefix.1 hstarts
  rw [← String.toList_inj, ← hrest]
  simp

theorem Helper.mem_of_ofName?_conditional {name : String} {helper : ConditionalHelper}
    (h : Helper.ofName? name = some (.conditional helper)) :
    name ∈ ["when", "unless", "whenOr", "unlessOr"] := by
  unfold ofName? at h
  split at h <;> simp_all

theorem Helper.mem_of_ofName?_combinator {name : String} {combinator : Combinator}
    (h : Helper.ofName? name = some (.combinator combinator)) :
    name ∈ ["allAsync", "allSettledAsync", "anyAsync"] := by
  unfold ofName? at h
  split at h <;> simp_all

namespace StepMethod

variable {name : String}

theorem eq_of_ofName?_parallel (h : ofName? name = some .parallel) : name = "parallel" := by
  unfold ofName? at h
  split at h <;> simp_all

theorem eq_of_ofName?_race (h : ofName? name = some .race) : name = "race" := by
  unfold ofName? at h
  split at h <;> simp_all

end StepMethod

namespace Reader

variable {r : Reader} {call : Node} {shape : CallShape}

/-- Why a call has its shape. -/
inductive Classified (r : Reader) (call : Node) : CallShape → Prop
  | step : r.context.step = some (r.source.calleeOf call) → r.Classified call .step
  | method {step name : String} {method : StepMethod} : r.context.step = some step →
      r.source.calleeOf call = step ++ "." ++ name → StepMethod.ofName? name = some method →
      r.Classified call (.method method)
  | helper {helper : Helper} : Helper.ofName? (r.source.calleeOf call) = some helper →
      r.Classified call (.helper helper)
  | sagaStep {binding : SagaBinding} {tryStep : Bool} : r.context.saga = some binding →
      binding.stepKind? (r.source.calleeOf call) = some tryStep →
      r.Classified call (.sagaStep tryStep)
  | iteration {function : Node} {kind : LoopKind} : call.child? .function = some function →
      function.unwrap.kind = .memberExpression →
      (function.unwrap.child? .property).map r.source.text ∈ [some "forEach", some "map"] →
      call.leadingCallback?.isSome → r.Classified call (.iteration kind)
  | workflowRef {ref : WorkflowRef} : call.leadingCallback?.isSome →
      r.context.workflowName ≠ some ref.workflowName → ref.workflowName ∉ r.bindings.runners →
      (ref.resolved ↔ ref.workflowName ∈ r.bindings.workflows) →
      r.Classified call (.workflowRef ref)

theorem classified_of_stepShape? (h : r.stepShape? (r.source.calleeOf call) = some shape) :
    r.Classified call shape := by
  obtain ⟨step, hstep, h⟩ := Option.bind_eq_some_iff.1 h
  split at h
  · next hcallee =>
    cases h
    exact .step (hcallee ▸ hstep)
  · obtain ⟨method, hmethod, rfl⟩ := Option.map_eq_some_iff.1 h
    obtain ⟨name, hname, hmethod⟩ := Option.bind_eq_some_iff.1 hmethod
    exact .method hstep (Text.eq_of_memberOf? hname) hmethod

theorem classified_of_iterationShape? {function : Node}
    (hfunction : call.child? .function = some function)
    (h : r.iterationShape? function.unwrap call.leadingCallback? = some shape) :
    r.Classified call shape := by
  unfold iterationShape? at h
  split at h
  · next hc =>
    split at h
    · next hname =>
      cases h
      exact .iteration hfunction hc.1 (by simp [hname]) hc.2
    · next hname =>
      cases h
      exact .iteration hfunction hc.1 (by simp [hname]) hc.2
    · cases h
  · cases h

theorem classified_of_refShape? {function : Node} {callee : String}
    (h : r.refShape? function callee call.leadingCallback? = some shape) :
    r.Classified call shape := by
  obtain ⟨f, hf, h⟩ := Option.bind_eq_some_iff.1 h
  have hcallback : call.leadingCallback?.isSome := by simp [hf]
  split at h
  · next hnames =>
    obtain ⟨-, hown, hrunner⟩ := hnames
    split at h
    · next hdefined =>
      cases h
      exact .workflowRef hcallback hown hrunner (by simpa using hdefined)
    · next hdefined =>
      split at h
      · cases h
        exact .workflowRef hcallback hown hrunner (by simpa using hdefined)
      · cases h
  · cases h

/-- A call of some shape was given it by one of the rules. -/
theorem classified (h : r.classify call = some shape) : r.Classified call shape := by
  obtain ⟨function, hfunction, h⟩ := Option.bind_eq_some_iff.1 h
  have hcallee : r.source.calleeText function.unwrap = r.source.calleeOf call := by
    simp [Source.calleeOf, hfunction]
  simp only [hcallee, Option.orElse_eq_orElse, Option.orElse_eq_or, Option.or_eq_some_iff] at h
  rcases h with h | ⟨-, h | ⟨-, h | ⟨-, h | ⟨-, h⟩⟩⟩⟩
  · exact classified_of_stepShape? h
  · obtain ⟨helper, hhelper, rfl⟩ := Option.map_eq_some_iff.1 h
    exact .helper hhelper
  · obtain ⟨tryStep, hstep, rfl⟩ := Option.map_eq_some_iff.1 h
    obtain ⟨binding, hbinding, hkind⟩ := Option.bind_eq_some_iff.1 hstep
    exact .sagaStep hbinding hkind
  · exact classified_of_iterationShape? hfunction h
  · exact classified_of_refShape? h

end Reader

end FlowShape
