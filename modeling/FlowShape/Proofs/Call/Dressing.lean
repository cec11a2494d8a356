import FlowShape.Proofs.Emission.Relabeling
import FlowShape.Proofs.Tree.Meaning

/-!
# Dressed arguments

An argument is dressed if it is a function literal in wrappers. Most of what is read from the
arguments of a call looks through wrappers, and so is the same if a literal is dressed.
-/

namespace FlowShape

theorem Source.operationCallee_unwrap (src : Source) (n : Node) :
    src.operationCallee n.unwrap = src.operationCallee n := by
  rw [operationCallee_eq, Node.unwrap_unwrap, ← operationCallee_eq]

namespace Node

theorem unwrap_of_isFunctionLiteral {n : Node} (h : n.isFunctionLiteral) : n.unwrap = n := by
  refine unwrap_of_not_transparent ?_
  rw [← Bool.not_eq_true]
  intro ht
  rw [not_isFunctionLiteral ht] at h
  contradiction

/-- Two alike nodes, or a function literal and an alike one in wrappers. -/
def Dressed (s s' : Source) (a a' : Node) : Prop :=
  Alike s s' a a' ∨ a.isFunctionLiteral ∧ a'.kind.isTransparent ∧ Alike s s' a a'.unwrap

instance (s s' : Source) (a a' : Node) : Decidable (Dressed s s' a a') :=
  inferInstanceAs (Decidable (Alike s s' a a' ∨
    a.isFunctionLiteral ∧ a'.kind.isTransparent ∧ Alike s s' a a'.unwrap))

namespace Dressed

variable {s s' : Source} {a a' : Node}

theorem unwrap (h : Dressed s s' a a') : Alike s s' a.unwrap a'.unwrap := by
  rcases h with h | ⟨hf, -, h⟩
  · exact h.unwrap
  · rwa [unwrap_of_isFunctionLiteral hf]

/-- A literal that is not in wrappers is as it was. -/
theorem alike_of_isFunctionLiteral (h : Dressed s s' a a') (hf : a'.isFunctionLiteral) :
    Alike s s' a a' := by
  rcases h with h | ⟨-, ht, -⟩
  · exact h
  · rw [not_isFunctionLiteral ht] at hf
    contradiction

theorem alike_of_not_isFunctionLiteral (h : Dressed s s' a a')
    (hf : a.isFunctionLiteral = false) : Alike s s' a a' := by
  rcases h with h | ⟨hf', -⟩
  · exact h
  · rw [hf] at hf'
    contradiction

theorem kind_eq_iff {k : Kind} (h : Dressed s s' a a') (ht : k.isTransparent = false)
    (hf : k.isFunctionLiteral = false) : a'.kind = k ↔ a.kind = k := by
  rcases h with h | ⟨hf', ht', -⟩
  · rw [h.kind]
  · constructor
    · rintro rfl
      rw [ht] at ht'
      contradiction
    · rintro rfl
      rw [Node.isFunctionLiteral, hf] at hf'
      contradiction

theorem operationCallee (h : Dressed s s' a a') :
    s'.operationCallee a' = s.operationCallee a := by
  rw [← Source.operationCallee_unwrap, h.unwrap.operationCallee, Source.operationCallee_unwrap]

end Dressed

/-- Two calls that are alike but for wrappers around some of the function literals among their
arguments. -/
structure DressedCall (s s' : Source) (call call' : Node) : Prop where
  function : Option.Rel (Alike s s') (call.child? .function) (call'.child? .function)
  arguments : List.Forall₂ (Dressed s s') call.callArguments call'.callArguments

theorem Alike.dressedCall {s s' : Source} {n n' : Node} (h : Alike s s' n n') :
    DressedCall s s' n n' :=
  ⟨h.child? .function, h.callArguments.imp fun _ _ => .inl⟩

end Node

/-! ## Arguments of steps -/

namespace StepArguments

/-- Arguments that say the same. -/
structure Same (s s' : Source) (x x' : StepArguments) : Prop where
  id : Option.Rel (Node.Alike s s') x.id x'.id
  operation : x'.operation.map s'.operationCallee = x.operation.map s.operationCallee
  options : Option.Rel (Node.Alike s s') x.options x'.options

variable {s s' : Source} {xs xs' : List Node}

/-- The object at a place among the arguments. -/
theorem object_at (h : List.Forall₂ (Node.Dressed s s') xs xs') (i : Nat) :
    Option.Rel (Node.Alike s s') ((xs[i]?.map Node.unwrap).filter (·.kind == .object))
      ((xs'[i]?.map Node.unwrap).filter (·.kind == .object)) :=
  ((h.getElem? i).map fun _ _ ha => ha.unwrap).filter fun _ _ ha => by rw [ha.kind]

theorem ofRest_same {id id' : Option Node} (hid : Option.Rel (Node.Alike s s') id id')
    (h : List.Forall₂ (Node.Dressed s s') xs xs') : Same s s' (ofRest id xs) (ofRest id' xs') where
  id := hid
  operation := (h.getElem? 0).map_eq fun _ _ ha => ha.operationCallee
  options := object_at h 1

/-- Related arguments are told apart alike: whether the first of them is the name of the step, and
what is left. -/
theorem ofList_rel {R : Node → Node → Prop}
    (hnamed : ∀ a a', R a a' → ((a'.kind = .string ∨ a'.kind = .templateString) ↔
      (a.kind = .string ∨ a.kind = .templateString))) (h : List.Forall₂ R xs xs') :
    ∃ id id' rest rest', ofList xs = ofRest id rest ∧ ofList xs' = ofRest id' rest' ∧
      Option.Rel (fun a a' => R a a' ∧ (a.kind = .string ∨ a.kind = .templateString)) id id' ∧
      List.Forall₂ R rest rest' := by
  match h with
  | .nil => exact ⟨none, none, [], [], rfl, rfl, .none, .nil⟩
  | .cons hfirst .nil => exact ⟨none, none, _, _, rfl, rfl, .none, .cons hfirst .nil⟩
  | .cons (a := first) (b := first') hfirst (.cons hsecond hrest) =>
    simp only [ofList, hnamed first first' hfirst]
    split
    · next hs => exact ⟨_, _, _, _, rfl, rfl, .some ⟨hfirst, hs⟩, .cons hsecond hrest⟩
    · exact ⟨_, _, _, _, rfl, rfl, .none, .cons hfirst (.cons hsecond hrest)⟩

theorem ofList_same (h : List.Forall₂ (Node.Dressed s s') xs xs') :
    Same s s' (ofList xs) (ofList xs') := by
  obtain ⟨id, id', rest, rest', hx, hx', hid, hrest⟩ := ofList_rel (fun a a' ha =>
    or_congr (ha.kind_eq_iff rfl rfl) (ha.kind_eq_iff rfl rfl)) h
  rw [hx, hx']
  refine ofRest_same (hid.imp fun a a' ⟨ha, hs⟩ => ha.alike_of_not_isFunctionLiteral ?_) hrest
  rcases hs with hs | hs <;> simp [Node.isFunctionLiteral, hs, Kind.isFunctionLiteral]

end StepArguments

namespace Reader

/-- The same reader for another source. -/
def within (r : Reader) (src : Source) : Reader := { r with source := src }

@[simp] theorem source_within (r : Reader) (src : Source) : (r.within src).source = src := rfl

end Reader

/-! ## Calls without inner structure -/

namespace Node.DressedCall

variable {r : Reader} {s' : Source} {call call' : Node} (h : DressedCall r.source s' call call')

include h

theorem calleeOf : s'.calleeOf call' = r.source.calleeOf call := by
  unfold Source.calleeOf
  rcases h.function.cases_eq with ⟨hf, hf'⟩ | ⟨f, f', hf, hf', halike⟩
  · rw [hf, hf']
  · simp only [hf, hf', halike.unwrap.calleeText]

theorem receiver? : Option.Rel (Alike r.source s') call.receiver? call'.receiver? :=
  (h.function.map fun _ _ hf => hf.unwrap).bind fun _ _ hf => hf.child? .object

theorem leadingObject? :
    Option.Rel (Alike r.source s') call.leadingObject? call'.leadingObject? :=
  (h.arguments.head?.map fun _ _ ha => ha.unwrap).filter fun _ _ ha => by rw [ha.kind]

theorem branchElements? : Option.Rel (List.Forall₂ (Alike r.source s')) call.branchElements?
    call'.branchElements? := by
  unfold Node.branchElements?
  match call.callArguments, call'.callArguments, h.arguments with
  | _, _, .nil => exact .some .nil
  | _, _, .cons hfirst _ =>
    simp only [hfirst.unwrap.kind]
    split
    · exact .some hfirst.unwrap.parts
    · exact .none

theorem operationName :
    (r.within s').operationName (StepArguments.ofList call'.callArguments) =
      r.operationName (StepArguments.ofList call.callArguments) :=
  congrArg (Option.getD · dynamicText) (StepArguments.ofList_same h.arguments).operation

theorem stepName? (settings : StepSettings) :
    (r.within s').stepName? settings (StepArguments.ofList call'.callArguments) =
      r.stepName? settings (StepArguments.ofList call.callArguments) := by
  have hid := (StepArguments.ofList_same h.arguments).id.map_eq fun _ _ ha => ha.staticString
  rw [Reader.stepName?, Reader.stepName?]
  exact congrArg (settings.name <|> ·) hid

theorem step {settings : Source → Option Node → StepSettings}
    (hsettings : ∀ {x x'}, Option.Rel (Alike r.source s') x x' →
      settings s' x' = settings r.source x) :
    ((r.within s').step call' settings).unplaced = (r.step call settings).unplaced := by
  have hoptions := hsettings (StepArguments.ofList_same h.arguments).options
  simp only [Reader.step, Outline.unplaced_leaf, Reader.source_within, hoptions, h.stepName?,
    h.operationName]

theorem sagaStep (tryStep : Bool) :
    ((r.within s').sagaStep call' tryStep).unplaced = (r.sagaStep call tryStep).unplaced := by
  have hoptions := (StepArguments.ofList_same h.arguments).options
  have hcompensation := hoptions.bind fun _ _ ho => ho.property? "compensate"
  simp only [Reader.sagaStep, Outline.unplaced_leaf, Reader.source_within, h.stepName?,
    h.operationName, Alike.ofOptions hoptions, hcompensation.isSome_eq,
    hcompensation.map_eq fun _ _ hc => hc.operationCallee]

theorem stream (kind : StreamKind) :
    ((r.within s').stream call' kind).unplaced = (r.stream call kind).unplaced := by
  have hobjects := (List.rel_map (fun _ _ ha => ha.unwrap) h.arguments).filter
    (p := (·.kind == .object)) (q := (·.kind == .object)) fun _ _ ha => by rw [ha.kind]
  have hentries := List.rel_flatMap hobjects fun _ _ ho => ho.entries
  simp only [Reader.stream, Outline.unplaced_leaf, Reader.source_within]
  rw [hentries.foldl_eq fun stream _ _ he => Alike.streamEntry he stream]

theorem keyedParallel {object object' : Node} (ho : Alike r.source s' object object') :
    ((r.within s').keyedParallel call' object').unplaced =
      (r.keyedParallel call object).unplaced := by
  have hoptions := Alike.ofOptions (StepArguments.object_at h.arguments 1)
  simp only [Reader.keyedParallel, Outline.unplaced_gather, Reader.source_within, hoptions,
    h.calleeOf, List.map_map]
  rw [ho.entries.map_eq]
  intro e e' he
  simp [Reader.implicitStep, he.1, he.2.operationCallee]

end Node.DressedCall

/-! ## Shapes of calls -/

/-- Calls of such a shape are told by a function literal that leads their arguments. -/
def CallShape.isToldByCallback : CallShape → Bool
  | .iteration _ | .workflowRef _ => true
  | _ => false

namespace Reader

variable {r : Reader} {shape : CallShape}

/-- The shape that a call has by its callee alone. -/
def namedShape? (r : Reader) (callee : String) : Option CallShape :=
  r.stepShape? callee <|> helperShape? callee <|> r.sagaShape? callee

/-- The shape that a call has by the callback that leads its arguments. -/
def callbackShape? (r : Reader) (function : Node) (callback : Option Node) : Option CallShape :=
  r.iterationShape? function callback <|>
    r.refShape? function (r.source.calleeText function) callback

theorem classify_eq (r : Reader) (call : Node) : r.classify call =
    (call.child? .function).bind fun f =>
      (r.namedShape? (r.source.calleeText f.unwrap)).or
        (r.callbackShape? f.unwrap call.leadingCallback?) := by
  unfold classify namedShape? callbackShape?
  simp only [Option.orElse_eq_or, Option.orElse_eq_orElse, Option.or_assoc]
  rfl

theorem isToldByCallback_of_namedShape? {callee : String} (h : r.namedShape? callee = some shape) :
    shape.isToldByCallback = false := by
  simp only [namedShape?, Option.orElse_eq_or, Option.orElse_eq_orElse,
    Option.or_eq_some_iff] at h
  rcases h with h | ⟨-, h | ⟨-, h⟩⟩
  · obtain ⟨step, -, h⟩ := Option.bind_eq_some_iff.1 h
    split at h
    · cases h
      rfl
    · obtain ⟨method, -, rfl⟩ := Option.map_eq_some_iff.1 h
      rfl
  · obtain ⟨helper, -, rfl⟩ := Option.map_eq_some_iff.1 h
    rfl
  · obtain ⟨tryStep, -, rfl⟩ := Option.map_eq_some_iff.1 h
    rfl

theorem isToldByCallback_of_callbackShape? {function : Node} {callback : Option Node}
    (h : r.callbackShape? function callback = some shape) : shape.isToldByCallback := by
  simp only [callbackShape?, Option.orElse_eq_or, Option.orElse_eq_orElse,
    Option.or_eq_some_iff] at h
  rcases h with h | ⟨-, h⟩
  · unfold iterationShape? at h
    split at h
    · split at h <;> cases h <;> rfl
    · cases h
  · obtain ⟨f, -, h⟩ := Option.bind_eq_some_iff.1 h
    split at h
    · split at h
      · cases h
        rfl
      · split at h <;> cases h
        rfl
    · cases h

theorem callbackShape?_none (r : Reader) (function : Node) :
    r.callbackShape? function none = none := by
  simp [callbackShape?, iterationShape?, refShape?]

variable {s' : Source}

theorem takesSteps_alike {f f' : Node} (h : Node.Alike r.source s' f f') :
    (r.within s').takesSteps f' = r.takesSteps f := by
  unfold takesSteps Node.parameterList?
  rcases ((h.child? .parameters).orElse (h.child? .parameter)).cases_eq with
    ⟨hp, hp'⟩ | ⟨p, p', hp, hp', halike⟩
  · rw [hp, hp']
  · have htext : (r.within s').source.text p' = r.source.text p := halike.text
    simp only [hp, hp', htext]

/-- The callee counts by its kind, its name and the property that it asks for. -/
theorem callbackShape?_congr {function function' : Node} {callback callback' : Option Node}
    (hkind : function'.kind = function.kind)
    (hproperty : function.kind = .memberExpression →
      (function'.child? .property).map s'.text = (function.child? .property).map r.source.text)
    (hcallee : s'.calleeText function' = r.source.calleeText function)
    (hc : Option.Rel (Node.Alike r.source s') callback callback') :
    (r.within s').callbackShape? function' callback' = r.callbackShape? function callback := by
  have href : (r.within s').refShape? function' (r.source.calleeText function) callback' =
      r.refShape? function (r.source.calleeText function) callback :=
    hc.bind_eq fun f f' halike => by rw [hkind, takesSteps_alike halike]; rfl
  have hiteration : (r.within s').iterationShape? function' callback' =
      r.iterationShape? function callback := by
    unfold iterationShape?
    rw [hkind, hc.isSome_eq, source_within]
    split
    · next h => rw [hproperty h.1]
    · rfl
  rw [callbackShape?, callbackShape?, source_within, hcallee, href, hiteration]

theorem callbackShape?_alike {function function' : Node} {callback callback' : Option Node}
    (hf : Node.Alike r.source s' function function')
    (hc : Option.Rel (Node.Alike r.source s') callback callback') :
    (r.within s').callbackShape? function' callback' = r.callbackShape? function callback :=
  callbackShape?_congr hf.kind (fun _ => (hf.child? .property).map_eq fun _ _ hp => hp.text)
    hf.calleeText hc

/-- A shape that is not told by a callback is the same for all calls with that callee. -/
theorem classify_of_function {call call' : Node}
    (hf : Option.Rel (Node.Alike r.source s') (call.child? .function) (call'.child? .function))
    (hs : r.classify call = some shape) (htold : shape.isToldByCallback = false) :
    (r.within s').classify call' = some shape := by
  rw [classify_eq] at hs ⊢
  obtain ⟨f, hfun, hs⟩ := Option.bind_eq_some_iff.1 hs
  rcases hf.cases_eq with ⟨hnone, -⟩ | ⟨g, f', hg, hfun', halike⟩
  · rw [hnone] at hfun
    contradiction
  obtain rfl : g = f := Option.some.inj (hg.symm.trans hfun)
  have hnamed : r.namedShape? (r.source.calleeText g.unwrap) = some shape := by
    rcases Option.or_eq_some_iff.1 hs with hs | ⟨-, hs⟩
    · exact hs
    · rw [isToldByCallback_of_callbackShape? hs] at htold
      contradiction
  rw [hfun', Option.bind_some, source_within, halike.unwrap.calleeText]
  exact Option.or_eq_some_iff.2 (.inl hnamed)

end Reader

namespace Node.DressedCall

variable {r : Reader} {s' : Source} {call call' : Node} (h : DressedCall r.source s' call call')

include h

/-- A literal that leads the arguments and is not in wrappers is as it was. -/
theorem leadingCallback? (hbare : call'.leadingCallback?.isSome) :
    Option.Rel (Alike r.source s') call.leadingCallback? call'.leadingCallback? := by
  unfold Node.leadingCallback? at hbare ⊢
  rcases h.arguments.head?.cases_eq with ⟨ha, ha'⟩ | ⟨a, a', ha, ha', hdressed⟩
  · simp [ha'] at hbare
  · have hf : a'.isFunctionLiteral := by simpa [ha', Option.isSome_filter] using hbare
    have halike := hdressed.alike_of_isFunctionLiteral hf
    rw [ha, ha']
    exact (Option.Rel.some halike).filter fun _ _ hc => hc.isFunctionLiteral

theorem classify_eq
    (hc : Option.Rel (Alike r.source s') call.leadingCallback? call'.leadingCallback?) :
    (r.within s').classify call' = r.classify call := by
  rw [Reader.classify_eq, Reader.classify_eq]
  refine h.function.bind_eq fun f f' hf => ?_
  rw [r.callbackShape?_alike hf.unwrap hc]
  exact congrArg (fun callee => (r.namedShape? callee).or _) hf.unwrap.calleeText

/-- Wrappers around the literal that leads the arguments hide the shapes that are told by it. -/
theorem classify :
    (r.within s').classify call' = (r.classify call).filter fun shape =>
      !shape.isToldByCallback || call'.leadingCallback?.isSome := by
  cases hbare : call'.leadingCallback?.isSome with
  | true =>
    rw [h.classify_eq (h.leadingCallback? hbare)]
    cases r.classify call <;> simp [Option.filter_some]
  | false =>
    rw [Option.isSome_eq_false_iff, Option.isNone_iff_eq_none] at hbare
    rw [Reader.classify_eq, Reader.classify_eq, hbare]
    rcases h.function.cases_eq with ⟨hf, hf'⟩ | ⟨f, f', hf, hf', halike⟩
    · rw [hf, hf']
      rfl
    have hnamed : (r.within s').namedShape? (s'.calleeText f'.unwrap) =
        r.namedShape? (r.source.calleeText f.unwrap) :=
      congrArg r.namedShape? halike.unwrap.calleeText
    simp only [hf, hf', Option.bind_some, Reader.source_within, hnamed,
      Reader.callbackShape?_none]
    cases hs : r.namedShape? (r.source.calleeText f.unwrap) with
    | some shape => simp [Option.filter_some, Reader.isToldByCallback_of_namedShape? hs]
    | none =>
      cases hs : r.callbackShape? f.unwrap call.leadingCallback? with
      | none => rfl
      | some shape => simp [Option.filter_some, Reader.isToldByCallback_of_callbackShape? hs]

end Node.DressedCall

end FlowShape
