import FlowShape.Entry.Discovery
import FlowShape.Proofs.Emission.Agreement
import FlowShape.Proofs.Reading.Likeness
import FlowShape.Proofs.Tree.Builder

/-!
# Wrappers around callbacks

What becomes of a call if some of the function literals among its arguments are put in wrappers:
parentheses, type assertions and the like. Helpers, combinators, steps and definitions see through
them. The methods that go over a collection, references to other workflows, and the methods of the
step function that run a callback do not: with wrappers around it, they miss their callback.
-/

namespace FlowShape

namespace Node

/-- Two children in the same role, related by `R`. -/
structure InRole (R : Node → Node → Prop) (c c' : Node) : Prop where
  field : c'.label.field = c.label.field
  named : c'.label.named = c.label.named
  related : R c c'

instance {R : Node → Node → Prop} (c c' : Node) [Decidable (R c c')] :
    Decidable (InRole R c c') :=
  decidable_of_iff (c'.label.field = c.label.field ∧ c'.label.named = c.label.named ∧ R c c')
    ⟨fun h => ⟨h.1, h.2.1, h.2.2⟩, fun h => ⟨h.field, h.named, h.related⟩⟩

/-- Two argument lists that are alike but for wrappers around some of the function literals. -/
structure DressedList (s s' : Source) (c c' : Node) : Prop where
  kind : c.kind = .arguments
  kind' : c'.kind = .arguments
  field : c.label.field = some .arguments
  children : List.Forall₂ (InRole (Dressed s s')) c.children c'.children

instance (s s' : Source) (c c' : Node) : Decidable (DressedList s s' c c') :=
  decidable_of_iff (c.kind = .arguments ∧ c'.kind = .arguments ∧
      c.label.field = some .arguments ∧
        List.Forall₂ (InRole (Dressed s s')) c.children c'.children)
    ⟨fun h => ⟨h.1, h.2.1, h.2.2.1, h.2.2.2⟩, fun h => ⟨h.kind, h.kind', h.field, h.children⟩⟩

/-- Two calls in two sources: the second is the first with wrappers around some of the function
literals among its arguments. -/
structure Wraps (s s' : Source) (call call' : Node) : Prop where
  kind : call.kind = .callExpression
  kind' : call'.kind = .callExpression
  children : List.Forall₂ (InRole fun c c' => Alike s s' c c' ∨ DressedList s s' c c')
    call.children call'.children

instance (s s' : Source) (call call' : Node) : Decidable (Wraps s s' call call') :=
  decidable_of_iff (call.kind = .callExpression ∧ call'.kind = .callExpression ∧
      List.Forall₂ (InRole fun c c' => Alike s s' c c' ∨ DressedList s s' c c') call.children
        call'.children)
    ⟨fun h => ⟨h.1, h.2.1, h.2.2⟩, fun h => ⟨h.kind, h.kind', h.children⟩⟩

variable {s s' : Source} {call call' : Node}

/-- Wrappers change nothing in what is a part. -/
theorem Dressed.isPart {a a' : Node} (h : InRole (Dressed s s') a a') : a'.isPart = a.isPart := by
  have hcomment := h.related.kind_eq_iff (k := .comment) rfl rfl
  rw [Node.isPart, Node.isPart, h.named, bne, bne, Bool.eq_iff_iff]
  simp [hcomment]

theorem DressedList.parts {c c' : Node} (h : DressedList s s' c c') :
    List.Forall₂ (Dressed s s') c.parts c'.parts :=
  (h.children.filter fun _ _ => Dressed.isPart).imp fun _ _ ha => ha.related

namespace Wraps

variable (h : Wraps s s' call call')

include h

theorem parts : List.Forall₂ (fun c c' => Alike s s' c c' ∨ DressedList s s' c c') call.parts
    call'.parts := by
  refine (h.children.filter fun c c' hc => ?_).imp fun _ _ hc => hc.related
  rw [Node.isPart, Node.isPart, hc.named]
  rcases hc.related with halike | hlist
  · rw [halike.kind]
  · rw [hlist.kind, hlist.kind']

theorem child? (f : Field) :
    Option.Rel (InRole fun c c' => Alike s s' c c' ∨ DressedList s s' c c') (call.child? f)
      (call'.child? f) :=
  h.children.find? fun _ _ hc => by rw [hc.field]

theorem dressedCall : DressedCall s s' call call' where
  function := by
    rcases (h.child? .function).cases_eq with ⟨hf, hf'⟩ | ⟨f, f', hf, hf', hrole⟩
    · rw [hf, hf']
      exact .none
    · have hfield : f.label.field = some .function := by simpa using List.find?_some hf
      rcases hrole.related with halike | hlist
      · rw [hf, hf']
        exact .some halike
      · rw [hlist.field] at hfield
        cases hfield
  arguments := by
    unfold callArguments
    rcases (h.child? .arguments).cases_eq with ⟨ha, ha'⟩ | ⟨a, a', ha, ha', hrole⟩
    · rw [ha, ha']
      exact .nil
    · rcases hrole.related with halike | hlist
      · simp only [ha, ha', halike.kind]
        split
        · exact halike.parts.imp fun _ _ => .inl
        · exact .nil
      · simp only [ha, ha', hlist.kind, hlist.kind', if_true]
        exact hlist.parts

end Wraps

end Node

namespace Reader

variable {r : Reader} {s' : Source} {call call' : Node}

/-- As an expression, an argument is read through its wrappers. -/
theorem unplaced_expression {a a' : Node} (h : Node.Dressed r.source s' a a') :
    ((r.within s').expression a').map Outline.unplaced =
      (r.expression a).map Outline.unplaced := by
  rw [← expression_unwrap, (sameReading h.unwrap).expression, expression_unwrap]

/-- What is found in the parts of a call does not depend on wrappers. -/
theorem unplaced_parts (h : Node.Wraps r.source s' call call') :
    (call'.parts.flatMap (r.within s').expression).map Outline.unplaced =
      (call.parts.flatMap r.expression).map Outline.unplaced := by
  refine flatMap_unplaced h.parts fun c c' hc => ?_
  rcases hc with halike | hlist
  · exact (sameReading halike).expression
  · rw [expression_arguments hlist.kind, expression_arguments hlist.kind']
    exact flatMap_unplaced hlist.parts fun _ _ => unplaced_expression

end Reader

/-! ## Callbacks that are still found -/

/-- Apart from what they quote, the conditions of two helper calls are the same. -/
theorem Node.DressedCall.unquoted_helperCondition {s s' : Source} {call call' : Node}
    (h : DressedCall s s' call call') (helper : ConditionalHelper) :
    (s'.helperCondition helper call'.callArguments).unquoted =
      (s.helperCondition helper call.callArguments).unquoted := by
  have hdefault := (h.arguments.getElem? 2).map_eq (f := fun _ => "") (g := fun _ => "")
    fun _ _ _ => rfl
  simp only [Source.helperCondition, Condition.unquoted]
  split
  · simpa [Function.comp_def] using hdefault
  · rfl

/-- The callback of a call, if it must be without wrappers, still is. -/
def CallShape.KeepsCallback (shape : CallShape) (call call' : Node) : Prop :=
  ∀ k ∈ shape.bareCallback? call.callArguments, call'.callArguments[k]?.any Node.isFunctionLiteral

instance (shape : CallShape) (call call' : Node) : Decidable (shape.KeepsCallback call call') :=
  inferInstanceAs (Decidable (∀ k ∈ shape.bareCallback? call.callArguments,
    call'.callArguments[k]?.any Node.isFunctionLiteral))

theorem CallShape.bareCallback?_of_isToldByCallback {shape : CallShape}
    (h : shape.isToldByCallback) (arguments : List Node) :
    shape.bareCallback? arguments = some 0 := by
  match shape with
  | .iteration _ | .workflowRef _ => rfl

namespace Reader

variable {r : Reader} {s' : Source} {call call' : Node} {shape : CallShape}

theorem alike_of_keepsCallback (h : Node.DressedCall r.source s' call call')
    (hkept : shape.KeepsCallback call call') :
    ∀ k ∈ shape.bareCallback? call.callArguments,
      Option.Rel (Node.Alike r.source s') call.callArguments[k]? call'.callArguments[k]? := by
  intro k hk
  have hliteral := hkept k hk
  rcases (h.arguments.getElem? k).cases_eq with ⟨ha, ha'⟩ | ⟨a, a', ha, ha', hdressed⟩
  · simp [ha'] at hliteral
  · rw [ha, ha']
    exact .some (hdressed.alike_of_isFunctionLiteral (by simpa [ha'] using hliteral))

theorem leadingCallback?_isSome {call : Node} :
    call.leadingCallback?.isSome = call.callArguments[0]?.any Node.isFunctionLiteral := by
  rw [Node.leadingCallback?, Option.isSome_filter, List.head?_eq_getElem?]

theorem classify_of_keepsCallback (h : Node.DressedCall r.source s' call call')
    (hs : r.classify call = some shape) (hkept : shape.KeepsCallback call call') :
    (r.within s').classify call' = some shape := by
  rw [h.classify, hs, Option.filter_some, if_pos]
  cases htold : shape.isToldByCallback with
  | false => rfl
  | true =>
    have hleading := hkept 0 (CallShape.bareCallback?_of_isToldByCallback htold _)
    simpa [leadingCallback?_isSome] using hleading

/-- The flow nodes of a call stay the same if its callback is still found. -/
theorem agrees_of_keepsCallback (h : Node.Wraps r.source s' call call') {e e' : Emitter}
    (hreport : e'.reportUnknown = e.reportUnknown) (hs : r.classify call = some shape)
    (hkept : shape.KeepsCallback call call') :
    Emit.Agrees (e.outlines (r.expression call))
      (e'.outlines ((r.within s').expression call')) := by
  have hcall := h.dressedCall
  rw [expression_call h.kind hs,
    expression_call h.kind' (classify_of_keepsCallback hcall hs hkept)]
  by_cases hhelper : ∃ helper, shape = .helper (.conditional helper)
  · obtain ⟨helper, rfl⟩ := hhelper
    simp only [call_conditional]
    refine Emitter.agrees_guarded hreport (hcall.unquoted_helperCondition helper) ?_
    refine flatMap_unplaced (hcall.arguments.getElem? 1).toList fun a a' ha => ?_
    rw [← argument_unwrap, (sameReading ha.unwrap).argument, argument_unwrap]
  · refine Emitter.agrees_of_unplaced hreport ?_
    refine sameReading_call hcall (fun ha _ => sameReading ha)
      (alike_of_keepsCallback hcall hkept) fun helper heq => ?_
    exact absurd ⟨helper, heq⟩ hhelper

end Reader

/-! ## Callbacks that are missed -/

/-- The combinator of a method of the step function that runs a callback. -/
def CallShape.encloses? : CallShape → Option Combinator
  | .method .parallel => some (.parallel .all)
  | .method .race => some .race
  | _ => none

/-- The first function literal among the arguments of a call that has no wrappers in another. -/
def Node.bareLiteral? (call call' : Node) : Option Node :=
  ((call.callArguments.zip call'.callArguments).find? (·.2.isFunctionLiteral)).map (·.1)

theorem Node.DressedCall.bareLiteral? {s s' : Source} {call call' : Node}
    (h : Node.DressedCall s s' call call') :
    Option.Rel (Node.Alike s s') (call.bareLiteral? call')
      (call'.callArguments.find? Node.isFunctionLiteral) := by
  have key {xs xs' : List Node} (hxs : List.Forall₂ (Node.Dressed s s') xs xs') :
      Option.Rel (Node.Alike s s') (((xs.zip xs').find? (·.2.isFunctionLiteral)).map (·.1))
        (xs'.find? Node.isFunctionLiteral) := by
    induction hxs with
    | nil => exact .none
    | @cons a a' xs xs' hdressed _ ih =>
      rw [List.zip_cons_cons, List.find?_cons, List.find?_cons]
      cases hf : a'.isFunctionLiteral with
      | true => exact .some (hdressed.alike_of_isFunctionLiteral hf)
      | false => exact ih
  exact key h.arguments

namespace Reader

/-- What a method of the step function runs together if `f` is taken for its callback. -/
def enclosedWith (r : Reader) (call : Node) (f : Option Node) : List Outline :=
  match f with
  | some f => r.callback f
  | none => (call.callArguments.drop 1).flatMap r.expression

variable {r : Reader} {s' : Source} {call call' : Node} {shape : CallShape}

theorem unplaced_enclosed (h : Node.DressedCall r.source s' call call') :
    ((r.within s').enclosed call').map Outline.unplaced =
      (r.enclosedWith call (call.bareLiteral? call')).map Outline.unplaced := by
  rw [enclosed_eq]
  rcases h.bareLiteral?.cases_eq with ⟨hf, hf'⟩ | ⟨f, f', hf, hf', halike⟩
  · rw [hf, hf']
    exact flatMap_unplaced (List.forall₂_drop 1 h.arguments) fun _ _ => unplaced_expression
  · rw [hf, hf']
    exact (sameReading halike).callback

/-- A call that is told by its callback means nothing if there are wrappers around the callback. -/
theorem agrees_of_told (h : Node.Wraps r.source s' call call') {e e' : Emitter}
    (hreport : e'.reportUnknown = e.reportUnknown) (hs : r.classify call = some shape)
    (htold : shape.isToldByCallback) (hmissed : ¬shape.KeepsCallback call call') :
    (r.within s').classify call' = none ∧
      Emit.Agrees (e.outlines (call.parts.flatMap r.expression))
        (e'.outlines ((r.within s').expression call')) := by
  have hleading : call'.leadingCallback?.isSome = false := by
    rw [← Bool.not_eq_true, leadingCallback?_isSome]
    intro hliteral
    refine hmissed fun k hk => ?_
    rw [CallShape.bareCallback?_of_isToldByCallback htold] at hk
    cases hk
    exact hliteral
  have hclassify : (r.within s').classify call' = none := by
    simp [h.dressedCall.classify, hs, hleading, htold, Option.filter_some]
  refine ⟨hclassify, ?_⟩
  rw [expression_unclassified h.kind' hclassify]
  exact Emitter.agrees_of_unplaced hreport (unplaced_parts h)

/-- A method that runs a callback runs another one, or its other arguments, if there are wrappers
around the first function literal. -/
theorem agrees_of_encloses (h : Node.Wraps r.source s' call call') {e e' : Emitter}
    (hreport : e'.reportUnknown = e.reportUnknown) (hs : r.classify call = some shape)
    {c : Combinator} (hc : shape.encloses? = some c)
    (hmissed : ¬shape.KeepsCallback call call') :
    (r.within s').classify call' = some shape ∧
      Emit.Agrees
        (e.outlines [.enclose call c (r.source.calleeOf call)
          (s'.leadingName? call'.callArguments)
          (r.enclosedWith call (call.bareLiteral? call'))])
        (e'.outlines ((r.within s').expression call')) := by
  have hcall := h.dressedCall
  have htold : shape.isToldByCallback = false := by
    cases shape with
    | iteration | workflowRef => cases hc
    | _ => rfl
  have hclassify : (r.within s').classify call' = some shape := by
    simp [hcall.classify, hs, htold, Option.filter_some]
  have hread : (r.within s').call shape call' =
      [.enclose call' c (s'.calleeOf call') (s'.leadingName? call'.callArguments)
        ((r.within s').enclosed call')] := by
    match shape with
    | .method .race =>
      cases hc
      rw [Reader.call]
      rfl
    | .method .parallel =>
      cases hc
      rcases hcall.leadingObject?.cases_eq with ⟨ho, ho'⟩ | ⟨o, o', ho, -, -⟩
      · rw [Reader.call, ho']
        rfl
      · refine absurd (fun k hk => ?_) hmissed
        rw [CallShape.bareCallback?_keyed ho] at hk
        cases hk
  refine ⟨hclassify, ?_⟩
  rw [expression_call h.kind' hclassify, hread]
  refine Emitter.agrees_of_unplaced hreport ?_
  simp [hcall.calleeOf, unplaced_enclosed hcall]

theorem told_or_encloses (hmissed : ¬shape.KeepsCallback call call') :
    shape.isToldByCallback ∨ ∃ c, shape.encloses? = some c := by
  match shape with
  | .iteration _ | .workflowRef _ => exact .inl rfl
  | .method .parallel | .method .race => exact .inr ⟨_, rfl⟩
  | .step | .method .retry | .method .withTimeout | .method (.stream _) | .helper _
  | .sagaStep _ => exact absurd (fun k hk => by cases hk) hmissed

/-- What wrappers around function literals do to a call. They change neither its shape nor its flow
nodes if it keeps its callback, as every call does that is none of a collection method, a reference
to a workflow, and a method of the step function that runs a callback. Else the call means nothing,
or what it runs together is taken from elsewhere. The callback of a definition is always found. -/
theorem callbacks_in_wrappers (r : Reader) {s' : Source} {call call' : Node}
    (h : Node.Wraps r.source s' call call') (e e' : Emitter)
    (hreport : e'.reportUnknown = e.reportUnknown) :
    ((∀ shape ∈ r.classify call, shape.KeepsCallback call call') →
      (r.within s').classify call' = r.classify call ∧
        Emit.Agrees (e.outlines (r.expression call))
          (e'.outlines ((r.within s').expression call'))) ∧
    (∀ shape ∈ r.classify call, ¬shape.KeepsCallback call call' →
      (shape.isToldByCallback ∧ (r.within s').classify call' = none ∧
        Emit.Agrees (e.outlines (call.parts.flatMap r.expression))
          (e'.outlines ((r.within s').expression call'))) ∨
      ∃ c, shape.encloses? = some c ∧ (r.within s').classify call' = some shape ∧
        Emit.Agrees
          (e.outlines [.enclose call c (r.source.calleeOf call)
            (s'.leadingName? call'.callArguments)
            (r.enclosedWith call (call.bareLiteral? call'))])
          (e'.outlines ((r.within s').expression call'))) ∧
    Option.Rel (fun f f' => Node.Alike r.source s' f f' ∧
        Emit.Agrees (e.outlines (r.callback f)) (e'.outlines ((r.within s').callback f')))
      call.callbackArgument? call'.callbackArgument? := by
  refine ⟨fun hkept => ?_, fun shape hs hmissed => ?_, ?_⟩
  · cases hs : r.classify call with
    | some shape =>
      have hkeeps := hkept shape hs
      exact ⟨classify_of_keepsCallback h.dressedCall hs hkeeps,
        agrees_of_keepsCallback h hreport hs hkeeps⟩
    | none =>
      have hs' : (r.within s').classify call' = none := by rw [h.dressedCall.classify, hs]; rfl
      refine ⟨hs', ?_⟩
      rw [expression_unclassified h.kind hs, expression_unclassified h.kind' hs']
      exact Emitter.agrees_of_unplaced hreport (unplaced_parts h)
  · rcases told_or_encloses hmissed with htold | ⟨c, hc⟩
    · exact .inl ⟨htold, agrees_of_told h hreport hs htold hmissed⟩
    · exact .inr ⟨c, hc, agrees_of_encloses h hreport hs hc hmissed⟩
  · have hunwrapped := List.rel_map (fun _ _ ha => Node.Dressed.unwrap ha) h.dressedCall.arguments
    refine (hunwrapped.find? fun _ _ ha => ha.isFunctionLiteral).imp fun f f' halike => ?_
    exact ⟨halike, Emitter.agrees_of_unplaced hreport (sameReading halike).callback⟩

end Reader

namespace Sample

/-- A function in parentheses and with a mark that it is not null. -/
def wrapped (f : Node) : Node :=
  part .nonNullExpression (f.start - 1) (f.stop + 2) [
    part .parenthesizedExpression (f.start - 1) (f.stop + 1) [
      token "(" (f.start - 1), f, token ")" f.stop],
    token "!" (f.stop + 1)]

def mapSource : Source := .ofString "sample.ts" "xs.map(x => step(x))"
def mapSourceWrapped : Source := .ofString "sample.ts" "xs.map((x => step(x))!)"

def mapCall (callback : Node) : Node :=
  part .callExpression 0 (callback.stop + 1) [
    role .function .memberExpression 0 6 [
      role .object .identifier 0 2 [], token "." 2,
      role .property (.other "property_identifier") 3 6 []],
    role .arguments .arguments 6 (callback.stop + 1) [
      token "(" 6, callback, token ")" callback.stop]]

def whenSource : Source := .ofString "sample.ts" "when(a, () => step(b))"
def whenSourceWrapped : Source := .ofString "sample.ts" "when(a, (() => step(b))!)"

/-- The function `() => step(b)`. -/
def whenCallback (start : Nat) : Node :=
  part .arrowFunction start (start + 13) [
    role .parameters .formalParameters start (start + 2) [token "(" start, token ")" (start + 1)],
    token "=>" (start + 3),
    inRole .body (stepCall (start + 6))]

def whenCall (callback : Node) : Node :=
  part .callExpression 0 (callback.stop + 1) [
    role .function .identifier 0 4 [],
    role .arguments .arguments 4 (callback.stop + 1) [
      token "(" 4, part .identifier 5 6 [], token "," 6, callback, token ")" callback.stop]]

end Sample

namespace Reader

/-- The callback of `map` is missed and that of `when` is found in wrappers. -/
theorem callbacks_in_wrappers_map_when :
    let mapReader : Reader := ⟨Sample.mapSource, {}, { step := some "step" }⟩
    let whenReader : Reader := ⟨Sample.whenSource, {}, { step := some "step" }⟩
    let emitter (src : Source) : Emitter := ⟨src, true, false⟩
    let mapCall := Sample.mapCall (Sample.mapCallback 7)
    let mapCall' := Sample.mapCall (Sample.wrapped (Sample.mapCallback 8))
    let whenCall := Sample.whenCall (Sample.whenCallback 8)
    let whenCall' := Sample.whenCall (Sample.wrapped (Sample.whenCallback 9))
    Node.Wraps Sample.mapSource Sample.mapSourceWrapped mapCall mapCall' ∧
      mapReader.classify mapCall = some (.iteration .map) ∧
      (mapReader.within Sample.mapSourceWrapped).classify mapCall' = none ∧
      Node.Wraps Sample.whenSource Sample.whenSourceWrapped whenCall whenCall' ∧
      Emit.Agrees ((emitter Sample.whenSource).outlines (whenReader.expression whenCall))
        ((emitter Sample.whenSourceWrapped).outlines
          ((whenReader.within Sample.whenSourceWrapped).expression whenCall')) := by
  intro mapReader whenReader emitter mapCall mapCall' whenCall whenCall'
  have hmap : Node.Wraps Sample.mapSource Sample.mapSourceWrapped mapCall mapCall' := by
    decide +kernel
  have hwhen : Node.Wraps Sample.whenSource Sample.whenSourceWrapped whenCall whenCall' := by
    decide +kernel
  have hshape : mapReader.classify mapCall = some (.iteration .map) := by decide +kernel
  have hmissed : ¬(CallShape.iteration .map).KeepsCallback mapCall mapCall' := by decide +kernel
  have hkept : ∀ shape ∈ whenReader.classify whenCall, shape.KeepsCallback whenCall whenCall' := by
    decide +kernel
  obtain ⟨-, hlost, -⟩ := callbacks_in_wrappers mapReader hmap (emitter Sample.mapSource)
    (emitter Sample.mapSourceWrapped) rfl
  obtain ⟨hfound, -, -⟩ := callbacks_in_wrappers whenReader hwhen (emitter Sample.whenSource)
    (emitter Sample.whenSourceWrapped) rfl
  rcases hlost _ hshape hmissed with ⟨-, hnone, -⟩ | ⟨c, hc, -⟩
  · exact ⟨hmap, hshape, hnone, hwhen, (hfound hkept).2⟩
  · cases hc

end Reader

end FlowShape
