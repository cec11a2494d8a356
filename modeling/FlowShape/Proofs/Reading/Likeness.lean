import FlowShape.Proofs.Call.Dressing
import FlowShape.Proofs.Reading.Descent

/-!
# Reading alike nodes

Nodes that are written alike are read alike: the same outlines are found in them, apart from where
they stand. A call may besides have wrappers around a function literal, unless it takes that literal
for its callback only without them.
-/

namespace FlowShape

namespace Reader

/-! ## Equations -/

theorem statement_eq (r : Reader) (n : Node) : r.statement n =
    match n.kind with
    | .expressionStatement | .returnStatement | .throwStatement =>
      (n.parts.take 1).flatMap r.expression
    | .lexicalDeclaration | .variableDeclaration => n.declaredValues.flatMap r.expression
    | .statementBlock => n.parts.flatMap r.statement
    | .ifStatement =>
      [.ifElse n (r.source.headerText n .condition) ((n.inField .consequence).flatMap r.statement)
        ((n.child? .alternative).map fun clause => clause.parts.flatMap r.statement)]
    | .forStatement =>
      (n.inField .body).map fun body =>
        .loop n (.ofBound .forLoop none (r.source.countedBound? n)) (r.statement body)
    | .forInStatement =>
      (n.inField .body).map fun body => .loop n (.overHeader r.source n body) (r.statement body)
    | .whileStatement | .doStatement =>
      (n.inField .body).map fun body => .loop n (.ofBound .whileLoop none none) (r.statement body)
    | .switchStatement =>
      (n.inField .body).map fun _ =>
        .switch n (r.source.headerText n .value) (n.switchCases.map fun c =>
          ⟨(c.child? .value).map r.source.text, c.kind == .switchDefault,
            (c.partsBut .value).flatMap r.statement⟩)
    | .tryStatement => n.tryBlocks.flatMap r.statement
    | .labeledStatement => (n.inField .body).flatMap r.statement
    | kind => if kind.isInert then [] else [r.unknown n] := by
  have h := statement.eq_def r n
  simp only [List.flatMap_subtype, List.map_subtype, List.unattach_attach, Option.map_subtype,
    Option.unattach_attach] at h
  exact h

theorem callback_eq (r : Reader) (f : Node) :
    r.callback f = (f.inField .body).flatMap fun body =>
      if body.kind = .statementBlock then r.statement body else r.expression body := by
  rw [callback]
  simp only [List.flatMap_subtype, List.unattach_attach]

theorem enclosed_eq (r : Reader) (n : Node) : r.enclosed n =
    match n.callArguments.find? Node.isFunctionLiteral with
    | some f => r.callback f
    | none => (n.callArguments.drop 1).flatMap r.expression := by
  rw [enclosed]
  split
  · next hf => rw [hf]
  · next hf =>
    rw [hf]
    simp only [List.flatMap_subtype, List.unattach_attach]

theorem call_combinator (r : Reader) (c : Combinator) (n : Node) :
    r.call (.helper (.combinator c)) n =
      [.gather n c (r.source.calleeOf n) none
        (match n.branchElements? with
          | some elements => elements.map r.element
          | none => (n.argumentAt 0).map r.argument)] := by
  rw [call]
  split <;> simp_all

theorem call_conditional (r : Reader) (helper : ConditionalHelper) (n : Node) :
    r.call (.helper (.conditional helper)) n =
      [.guarded n (r.source.helperCondition helper n.callArguments)
        ((n.argumentAt 1).flatMap r.argument)] := by
  rw [call]
  simp only [List.flatMap_subtype, List.unattach_attach]

theorem call_iteration (r : Reader) (kind : LoopKind) (n : Node) :
    r.call (.iteration kind) n = (n.argumentAt 0).map fun f =>
      .loop n (.overElements r.source kind n.receiver?) (r.callback f) := by
  rw [call]
  simp only [List.map_subtype, List.unattach_attach]

theorem expression_arguments {r : Reader} {n : Node} (h : n.kind = .arguments) :
    r.expression n = n.parts.flatMap r.expression := by
  have hunwrap : n.unwrap = n := Node.unwrap_of_not_transparent (by simp [h, Kind.isTransparent])
  rw [expression_eq, hunwrap]
  simp [h, Node.isFunctionScope, Kind.isFunctionScope, Kind.isFunctionLiteral, shapeOf?]

theorem expression_call {r : Reader} {n : Node} (h : n.kind = .callExpression)
    {shape : CallShape} (hs : r.classify n = some shape) : r.expression n = r.call shape n := by
  have hunwrap : n.unwrap = n := Node.unwrap_of_not_transparent (by simp [h, Kind.isTransparent])
  rw [expression_eq, hunwrap]
  simp [h, hs, Node.isFunctionScope, Kind.isFunctionScope, Kind.isFunctionLiteral, shapeOf?]

theorem expression_unclassified {r : Reader} {n : Node} (h : n.kind = .callExpression)
    (hs : r.classify n = none) : r.expression n = n.parts.flatMap r.expression := by
  have hunwrap : n.unwrap = n := Node.unwrap_of_not_transparent (by simp [h, Kind.isTransparent])
  rw [expression_eq, hunwrap]
  simp [h, hs, Node.isFunctionScope, Kind.isFunctionScope, Kind.isFunctionLiteral, shapeOf?]

theorem expression_unwrap (r : Reader) (n : Node) : r.expression n.unwrap = r.expression n :=
  expression_congr n.unwrap_unwrap

theorem argument_unwrap (r : Reader) (n : Node) : r.argument n.unwrap = r.argument n := by
  rw [argument_eq, argument_eq, n.unwrap_unwrap]

end Reader

/-! ## Callbacks without wrappers -/

/-- The place of the argument that a call takes for its callback only without wrappers around it. -/
def CallShape.bareCallback? (shape : CallShape) (arguments : List Node) : Option Nat :=
  match shape with
  | .iteration _ | .workflowRef _ => some 0
  | .method .parallel =>
    if (arguments.head?.map Node.unwrap).any (·.kind == .object) then none
    else arguments.findIdx? Node.isFunctionLiteral
  | .method .race => arguments.findIdx? Node.isFunctionLiteral
  | _ => none

theorem CallShape.bareCallback?_parallel {call : Node} (h : call.leadingObject? = none) :
    (method .parallel).bareCallback? call.callArguments =
      call.callArguments.findIdx? Node.isFunctionLiteral := by
  cases ha : call.callArguments.head? <;> simp_all [bareCallback?, Node.leadingObject?]

theorem CallShape.bareCallback?_keyed {call object : Node}
    (h : call.leadingObject? = some object) :
    (method .parallel).bareCallback? call.callArguments = none := by
  cases ha : call.callArguments.head? <;> simp_all [bareCallback?, Node.leadingObject?]

theorem overElements_alike {s s' : Source} {x x' : Option Node}
    (h : Option.Rel (Node.Alike s s') x x') (kind : LoopKind) :
    Repetition.overElements s' kind x' = Repetition.overElements s kind x := by
  rw [Repetition.overElements, h.map_eq fun _ _ hc => hc.text,
    h.bind_eq fun _ _ hc => hc.arrayBound?, Repetition.overElements]

theorem overHeader_alike {s s' : Source} {n n' b b' : Node} (h : Node.Alike s s' n n')
    (htwin : Node.Twin s s' n n' b b') :
    Repetition.overHeader s' n' b' = Repetition.overHeader s n b := by
  have hright := h.child? .right
  rw [Repetition.overHeader, Repetition.overHeader, htwin.textUpTo, overElements_alike hright,
    hright.map_eq fun _ _ hc => hc.text]

namespace Node.Dressed

variable {s s' : Source} {xs xs' : List Node}

/-- If there are no wrappers around the first function literal, the first argument is as it was. -/
theorem alike_head {a a' : Node} (h : Dressed s s' a a')
    (hbare : ∀ k ∈ (a :: xs).findIdx? Node.isFunctionLiteral,
      Option.Rel (Alike s s') (a :: xs)[k]? (a' :: xs')[k]?) : Alike s s' a a' := by
  cases hf : a.isFunctionLiteral with
  | true =>
    obtain ⟨halike⟩ := hbare 0 (by simp [List.findIdx?_cons, hf])
    exact halike
  | false => exact h.alike_of_not_isFunctionLiteral hf

/-- If there are no wrappers around the first function literal, it is still the first one. -/
theorem find?_isFunctionLiteral (h : List.Forall₂ (Dressed s s') xs xs')
    (hbare : ∀ k ∈ xs.findIdx? Node.isFunctionLiteral, Option.Rel (Alike s s') xs[k]? xs'[k]?) :
    Option.Rel (Alike s s') (xs.find? Node.isFunctionLiteral)
      (xs'.find? Node.isFunctionLiteral) := by
  induction h with
  | nil => exact .none
  | @cons a a' xs xs' hdressed _ ih =>
    have halike := hdressed.alike_head hbare
    rw [List.find?_cons, List.find?_cons, halike.isFunctionLiteral]
    cases hf : a.isFunctionLiteral with
    | true => exact .some halike
    | false =>
      refine ih fun k hk => ?_
      have hk' : k + 1 ∈ (a :: xs).findIdx? Node.isFunctionLiteral := by
        rw [Option.mem_def] at hk
        simp [List.findIdx?_cons, hf, hk]
      simpa using hbare (k + 1) hk'

theorem leadingName? (h : List.Forall₂ (Dressed s s') xs xs')
    (hbare : ∀ k ∈ xs.findIdx? Node.isFunctionLiteral, Option.Rel (Alike s s') xs[k]? xs'[k]?) :
    s'.leadingName? xs' = s.leadingName? xs := by
  match h with
  | .nil => rfl
  | .cons (a := a) (b := a') hdressed hrest =>
    have halike := hdressed.alike_head hbare
    refine ((Option.Rel.some halike).filter fun _ _ hc => ?_).map_eq fun _ _ hc => ?_
    · rw [hc.isFunctionLiteral]
    · rw [hc.stringLiteral?, hc.text]

end Node.Dressed

namespace Reader

/-- Two nodes in which the same is found in every role, apart from where it stands. -/
structure SameReading (r : Reader) (s' : Source) (n n' : Node) : Prop where
  statement : ((r.within s').statement n').map Outline.unplaced =
    (r.statement n).map Outline.unplaced
  expression : ((r.within s').expression n').map Outline.unplaced =
    (r.expression n).map Outline.unplaced
  callback : ((r.within s').callback n').map Outline.unplaced =
    (r.callback n).map Outline.unplaced
  argument : ((r.within s').argument n').map Outline.unplaced =
    (r.argument n).map Outline.unplaced
  element : ((r.within s').element n').map Outline.unplaced = (r.element n).map Outline.unplaced

/-- What is found in several nodes is the same if it is the same in each of them. -/
theorem flatMap_unplaced {R : Node → Node → Prop} {f f' : Node → List Outline}
    {cs cs' : List Node} (h : List.Forall₂ R cs cs')
    (hf : ∀ c c', R c c' → (f' c').map Outline.unplaced = (f c).map Outline.unplaced) :
    (cs'.flatMap f').map Outline.unplaced = (cs.flatMap f).map Outline.unplaced := by
  rw [List.map_flatMap, List.map_flatMap, h.flatMap_eq hf]

/-! ## Calls -/

section Call

variable {r : Reader} {s' : Source} {call call' : Node}
  (h : Node.DressedCall r.source s' call call')
  (ih : ∀ {m m'}, Node.Alike r.source s' m m' → m.size < call.size → r.SameReading s' m m')

include h ih

/-- Arguments are read alike under their wrappers. -/
theorem sameReading_arguments :
    List.Forall₂ (fun a a' => r.SameReading s' a.unwrap a'.unwrap) call.callArguments
      call'.callArguments := by
  refine h.arguments.imp_of_mem fun a ha a' hdressed => ih hdressed.unwrap ?_
  exact Nat.lt_of_le_of_lt a.size_unwrap_le (Node.size_lt_of_mem_callArguments ha)

theorem sameReading_enclosed (hbare : ∀ k ∈ call.callArguments.findIdx? Node.isFunctionLiteral,
      Option.Rel (Node.Alike r.source s') call.callArguments[k]? call'.callArguments[k]?) :
    ((r.within s').enclosed call').map Outline.unplaced =
      (r.enclosed call).map Outline.unplaced := by
  rw [enclosed_eq, enclosed_eq]
  rcases (Node.Dressed.find?_isFunctionLiteral h.arguments hbare).cases_eq with
    ⟨hf, hf'⟩ | ⟨f, f', hf, hf', halike⟩
  · rw [hf, hf']
    refine flatMap_unplaced (List.forall₂_drop 1 (sameReading_arguments h ih)) fun a a' ha => ?_
    rw [← expression_unwrap, ha.expression, expression_unwrap]
  · rw [hf, hf']
    exact (ih halike (Node.size_lt_of_mem_callArguments (List.mem_of_find?_eq_some hf))).callback

theorem sameReading_gather (c : Combinator) :
    ((r.within s').call (.helper (.combinator c)) call').map Outline.unplaced =
      (r.call (.helper (.combinator c)) call).map Outline.unplaced := by
  simp only [call_combinator, List.map_cons, List.map_nil, Outline.unplaced_gather, source_within,
    h.calleeOf]
  congr 2
  rcases h.branchElements?.cases_eq with ⟨hb, hb'⟩ | ⟨bs, bs', hb, hb', halike⟩
  · simp only [hb, hb', List.map_map]
    refine ((sameReading_arguments h ih).getElem? 0).toList.map_eq fun a a' ha => ?_
    rw [Function.comp, Function.comp, ← argument_unwrap, ha.argument, argument_unwrap]
  · simp only [hb, hb', List.map_map]
    have hsame := halike.imp_of_mem fun b hmem b' hb'' =>
      ih hb'' (Node.size_lt_of_mem_branchElements? hb hmem)
    exact hsame.map_eq fun b b' hb'' => hb''.element

/-- A call is read alike if its callback has wrappers only where they are seen through. -/
theorem sameReading_call {shape : CallShape}
    (hbare : ∀ k ∈ shape.bareCallback? call.callArguments,
      Option.Rel (Node.Alike r.source s') call.callArguments[k]? call'.callArguments[k]?)
    (hquote : ∀ helper, shape = .helper (.conditional helper) →
      s'.helperCondition helper call'.callArguments =
        r.source.helperCondition helper call.callArguments) :
    ((r.within s').call shape call').map Outline.unplaced =
      (r.call shape call).map Outline.unplaced := by
  match shape with
  | .step => simp [Reader.call, h.step Node.Alike.ofOptions]
  | .method .retry => simp [Reader.call, h.step Node.Alike.withRetry]
  | .method .withTimeout => simp [Reader.call, h.step Node.Alike.withTimeout]
  | .method (.stream kind) => simp [Reader.call, h.stream]
  | .sagaStep tryStep => simp [Reader.call, h.sagaStep]
  | .workflowRef ref => simp [Reader.call]
  | .method .parallel =>
    rw [Reader.call, Reader.call]
    rcases h.leadingObject?.cases_eq with ⟨ho, ho'⟩ | ⟨o, o', ho, ho', halike⟩
    · rw [CallShape.bareCallback?_parallel ho] at hbare
      simp [ho, ho', h.calleeOf, Node.Dressed.leadingName? h.arguments hbare,
        sameReading_enclosed h ih hbare]
    · simp [ho, ho', h.keyedParallel halike]
  | .method .race =>
    simp [Reader.call, h.calleeOf, Node.Dressed.leadingName? h.arguments hbare,
      sameReading_enclosed h ih hbare]
  | .helper (.conditional helper) =>
    simp only [call_conditional, List.map_cons, List.map_nil, Outline.unplaced_guarded,
      source_within, hquote helper rfl]
    congr 2
    refine flatMap_unplaced ((sameReading_arguments h ih).getElem? 1).toList fun a a' ha => ?_
    rw [← argument_unwrap, ha.argument, argument_unwrap]
  | .helper (.combinator c) => exact sameReading_gather h ih c
  | .iteration kind =>
    have hrepetition := overElements_alike h.receiver? kind
    simp only [call_iteration, List.map_map, source_within]
    refine ((hbare 0 rfl).toList.imp_of_mem fun f hf f' halike =>
      ih halike (Node.size_lt_of_mem_argumentAt hf)).map_eq fun f f' hsame => ?_
    simp [hrepetition, hsame.callback]

end Call

/-! ## Nodes -/

theorem helperCondition_alike {s s' : Source} {xs xs' : List Node}
    (h : List.Forall₂ (Node.Alike s s') xs xs') (helper : ConditionalHelper) :
    s'.helperCondition helper xs' = s.helperCondition helper xs := by
  simp only [Source.helperCondition, (h.getElem? 0).map_eq fun _ _ ha => ha.text,
    (h.getElem? 2).map_eq fun _ _ ha => ha.text]

theorem classify_alike {r : Reader} {s' : Source} {n n' : Node}
    (h : Node.Alike r.source s' n n') : (r.within s').classify n' = r.classify n :=
  h.dressedCall.classify_eq (h.callArguments.head?.filter fun _ _ ha => ha.isFunctionLiteral)

theorem shapeOf?_alike {r : Reader} {s' : Source} {n n' : Node}
    (h : Node.Alike r.source s' n n') : (r.within s').shapeOf? n' = r.shapeOf? n := by
  rw [shapeOf?, shapeOf?, h.kind, classify_alike h]

section Below

variable {r : Reader} {s' : Source} {n n' : Node} (h : Node.Alike r.source s' n n')
  (ih : ∀ {m m'}, Node.Alike r.source s' m m' → m.size < n.size → r.SameReading s' m m')

include h ih

theorem sameReading_parts : List.Forall₂ (r.SameReading s') n.parts n'.parts :=
  h.parts.imp_of_mem fun _ hc _ halike => ih halike (Node.size_lt_of_mem_parts hc)

theorem sameReading_inField (f : Field) :
    List.Forall₂ (r.SameReading s') (n.inField f) (n'.inField f) :=
  (h.inField f).imp_of_mem fun _ hc _ halike => ih halike (Node.size_lt_of_mem_inField hc)

theorem sameReading_alternative :
    ((n'.child? .alternative).map fun clause =>
      (clause.parts.flatMap (r.within s').statement).map Outline.unplaced) =
    (n.child? .alternative).map fun clause =>
      (clause.parts.flatMap r.statement).map Outline.unplaced := by
  rcases (h.child? .alternative).cases_eq with ⟨hc, hc'⟩ | ⟨c, c', hc, hc', halike⟩
  · rw [hc, hc']
    rfl
  · have hsize := Node.size_lt_of_child? hc
    have hparts := sameReading_parts halike fun ha hlt => ih ha (Nat.lt_trans hlt hsize)
    rw [hc, hc', Option.map_some, Option.map_some]
    exact congrArg some (flatMap_unplaced hparts fun _ _ hs => hs.statement)

theorem sameReading_cases :
    (n'.switchCases.map fun c => Case.map Outline.unplaced
      ⟨(c.child? .value).map s'.text, c.kind == .switchDefault,
        (c.partsBut .value).flatMap (r.within s').statement⟩) =
    n.switchCases.map fun c => Case.map Outline.unplaced
      ⟨(c.child? .value).map r.source.text, c.kind == .switchDefault,
        (c.partsBut .value).flatMap r.statement⟩ := by
  refine (h.switchCases.imp_of_mem fun c hc c' halike =>
    And.intro halike (Node.size_lt_of_mem_switchCases hc)).map_eq fun c c' ⟨halike, hsize⟩ => ?_
  have hparts := (halike.partsBut .value).imp_of_mem fun d hd d' hd' =>
    ih hd' (Nat.lt_trans (Node.size_lt_of_mem_partsBut hd) hsize)
  rw [(halike.child? .value).map_eq fun _ _ hv => hv.text, halike.kind, Case.map, Case.map,
    flatMap_unplaced hparts fun _ _ hs => hs.statement]

/-- Loops with the same header are read alike. -/
theorem sameReading_loop {repetition repetition' : Node → Repetition}
    (hrepetition : ∀ b b', Node.Twin r.source s' n n' b b' → repetition' b' = repetition b) :
    ((n'.inField .body).map fun b =>
      Outline.loop n' (repetition' b) ((r.within s').statement b)).map Outline.unplaced =
    ((n.inField .body).map fun b =>
      Outline.loop n (repetition b) (r.statement b)).map Outline.unplaced := by
  rw [List.map_map, List.map_map]
  refine ((h.twin? .body).toList.imp_of_mem fun b hb b' htwin => And.intro htwin
    (ih htwin.alike (Node.size_lt_of_mem_inField hb))).map_eq fun b b' ⟨htwin, hsame⟩ => ?_
  simp [hrepetition b b' htwin, hsame.statement]

theorem sameReading_statement :
    ((r.within s').statement n').map Outline.unplaced = (r.statement n).map Outline.unplaced := by
  have hparts := sameReading_parts h ih
  have hfirst := flatMap_unplaced (List.forall₂_take 1 hparts) fun _ _ hs => hs.expression
  have hvalues := flatMap_unplaced (h.declaredValues.imp_of_mem fun v hv v' hv' =>
    ih hv' (Node.size_lt_of_mem_declaredValues hv)) fun _ _ hs => hs.expression
  rw [statement_eq, statement_eq, h.kind, source_within]
  -- One case for each kind of statement, in the order of `statement_eq`.
  split
  · exact hfirst
  · exact hfirst
  · exact hfirst
  · exact hvalues
  · exact hvalues
  · exact flatMap_unplaced hparts fun _ _ hs => hs.statement
  · have hconsequent := flatMap_unplaced (sameReading_inField h ih .consequence)
      fun _ _ hs => hs.statement
    have halternative := sameReading_alternative h ih
    simp only [List.map_cons, List.map_nil, Outline.unplaced_ifElse, h.headerText, hconsequent,
      Option.map_map]
    simp only [Function.comp_def, halternative]
  · exact sameReading_loop h ih fun _ _ _ => by rw [h.countedBound?]
  · exact sameReading_loop h ih fun b b' htwin => overHeader_alike h htwin
  · exact sameReading_loop h ih fun _ _ _ => rfl
  · exact sameReading_loop h ih fun _ _ _ => rfl
  · have hcases := sameReading_cases h ih
    rw [List.map_map, List.map_map]
    refine (h.inField .body).map_eq fun _ _ _ => ?_
    simp only [Function.comp, Outline.unplaced_switch, h.headerText, List.map_map]
    exact congrArg _ hcases
  · exact flatMap_unplaced (h.tryBlocks.imp_of_mem fun b hb b' hb' =>
      ih hb' (Node.size_lt_of_mem_tryBlocks hb)) fun _ _ hs => hs.statement
  · exact flatMap_unplaced (sameReading_inField h ih .body) fun _ _ hs => hs.statement
  · split
    · rfl
    · simp [unknown, h.kind, h.text]

theorem sameReading_callback :
    ((r.within s').callback n').map Outline.unplaced = (r.callback n).map Outline.unplaced := by
  rw [callback_eq, callback_eq]
  refine flatMap_unplaced ((h.inField .body).imp_of_mem fun c hc c' halike =>
    And.intro halike (ih halike (Node.size_lt_of_mem_inField hc))) fun c c' hc => ?_
  rw [hc.1.kind]
  split
  · exact hc.2.statement
  · exact hc.2.expression

theorem sameReading_expression :
    ((r.within s').expression n').map Outline.unplaced =
      (r.expression n).map Outline.unplaced := by
  have hop := h.unwrap
  have ih' {m m' : Node} (ha : Node.Alike r.source s' m m') (hlt : m.size < n.unwrap.size) :=
    ih ha (Nat.lt_of_lt_of_le hlt n.size_unwrap_le)
  rw [expression_eq, expression_eq r n, hop.kind, hop.isFunctionScope]
  split
  · rfl
  split
  · have hfields (f : Field) := flatMap_unplaced (sameReading_inField hop ih' f)
      fun _ _ hs => hs.expression
    simp [hfields, hop.headerText]
  rw [shapeOf?_alike hop]
  split
  · exact flatMap_unplaced (sameReading_parts hop ih') fun _ _ hs => hs.expression
  · refine sameReading_call hop.dressedCall ih' (fun k _ => hop.callArguments.getElem? k) ?_
    exact fun helper _ => helperCondition_alike hop.callArguments helper

end Below

/-- Nodes that are written alike are read alike. -/
theorem sameReading {r : Reader} {s' : Source} {n n' : Node}
    (h : Node.Alike r.source s' n n') : r.SameReading s' n n' := by
  -- By size and not by children: what stands in several wrappers is no child of the outermost.
  induction hsize : n.size using Nat.strongRecOn generalizing n n' with
  | ind k ih =>
    subst hsize
    have hop := h.unwrap
    have ih' {m m' : Node} (ha : Node.Alike r.source s' m m') (hlt : m.size < n.size) :=
      ih m.size hlt ha rfl
    have ihop {m m' : Node} (ha : Node.Alike r.source s' m m') (hlt : m.size < n.unwrap.size) :=
      ih' ha (Nat.lt_of_lt_of_le hlt n.size_unwrap_le)
    have hargument : ((r.within s').argument n').map Outline.unplaced =
        (r.argument n).map Outline.unplaced := by
      rw [argument_eq, argument_eq, hop.isFunctionLiteral]
      split
      · exact sameReading_callback hop ihop
      · exact sameReading_expression hop ihop
    refine ⟨sameReading_statement h ih', sameReading_expression h ih', sameReading_callback h ih',
      hargument, ?_⟩
    rw [element_eq, element_eq, hop.kind, classify_alike hop, argument_unwrap, argument_unwrap]
    split
    · simp [implicitStep, hop.calleeOf]
    · exact hargument

end Reader

end FlowShape
