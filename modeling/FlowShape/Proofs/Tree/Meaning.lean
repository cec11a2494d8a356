import FlowShape.Proofs.Tree.Alike

/-!
# What alike nodes say

Names, literals, objects, settings of steps, operations and bounds of loops are the same in nodes
that are written alike.
-/

namespace FlowShape

/-- The expression that tells what a function does. -/
def Node.outcome? (f : Node) : Option Node :=
  (f.child? .body).bind fun body =>
    if body.kind = .statementBlock then body.resultOf? else some body

theorem Node.size_lt_of_outcome? {f e : Node} (h : f.outcome? = some e) : e.size < f.size := by
  obtain ⟨body, hbody, h⟩ := Option.bind_eq_some_iff.1 h
  have := Node.size_lt_of_child? hbody
  split at h
  · have := Node.size_le_of_resultOf? h
    omega
  · cases h
    assumption

theorem Source.operationCallee_eq (src : Source) (n : Node) : src.operationCallee n =
    if n.unwrap.kind = .callExpression ∨ n.unwrap.kind = .newExpression then
      ((n.unwrap.child? .function <|> n.unwrap.child? .constructor).map
        fun callee => src.calleeText callee.unwrap).getD (src.text n.unwrap)
    else if n.unwrap.isFunctionLiteral ∨ n.unwrap.kind = .methodDefinition then
      (n.unwrap.outcome?.map src.operationCallee).getD dynamicText
    else if n.unwrap.kind = .identifier ∨ n.unwrap.kind = .memberExpression then
      src.calleeText n.unwrap
    else src.text n.unwrap := by
  conv_lhs => rw [operationCallee]
  congr 1
  · cases n.unwrap.child? .function <|> n.unwrap.child? .constructor <;> rfl
  · congr 1
    unfold Node.outcome?
    split
    · next hbody => simp [hbody]
    · next body hbody =>
      by_cases hk : body.kind = .statementBlock
      · simp only [hbody, hk, if_true, Option.bind_some]
        split <;> simp_all
      · simp [hbody, hk]

namespace Node.Alike

variable {s s' : Source} {n n' : Node}

/-! ## Names -/

theorem calleeText (h : Alike s s' n n') : s'.calleeText n' = s.calleeText n := by
  induction n using childrenInduction generalizing n' with
  | h n ih =>
    rw [Source.calleeText, Source.calleeText, h.kind]
    split
    · rcases (h.child? .object).cases_eq with ⟨ho, ho'⟩ | ⟨o, o', ho, ho', halike⟩
      · split <;> split <;> simp_all [h.text]
      · rcases (h.child? .property).cases_eq with ⟨hp, hp'⟩ | ⟨p, p', hp, hp', hprop⟩
        · split <;> split <;> simp_all [h.text]
        · have := ih o (List.mem_of_find?_eq_some ho) halike
          split <;> split <;> simp_all [hprop.text]
    · rcases h.firstPart?.cases_eq with ⟨hc, hc'⟩ | ⟨c, c', hc, hc', halike⟩
      · split <;> split <;> simp_all [h.text]
      · have := ih c (mem_children_of_firstPart? hc) halike
        split <;> split <;> simp_all
    · exact h.text

theorem calleeOf (h : Alike s s' n n') : s'.calleeOf n' = s.calleeOf n := by
  unfold Source.calleeOf
  rcases (h.child? .function).cases_eq with ⟨hc, hc'⟩ | ⟨c, c', hc, hc', halike⟩
  · rw [hc, hc']
  · simp only [hc, hc', halike.unwrap.calleeText]

theorem unparenthesized (h : Alike s s' n n') : s'.unparenthesized n' = s.unparenthesized n := by
  unfold Source.unparenthesized
  rw [h.kind, h.text]
  rcases h.firstPart?.cases_eq with ⟨hc, hc'⟩ | ⟨c, c', hc, hc', halike⟩
  · simp [hc, hc', h.text]
  · simp [hc, hc', halike.text]

theorem headerText (h : Alike s s' n n') (f : Field) : s'.headerText n' f = s.headerText n f :=
  congrArg (Option.getD · "") ((h.child? f).map_eq fun _ _ hc => hc.unparenthesized)

theorem childText? (h : Alike s s' n n') (f : Field) : s'.childText? n' f = s.childText? n f :=
  (h.child? f).map_eq fun _ _ hc => hc.text

/-! ## Literals -/

theorem stringLiteral? (h : Alike s s' n n') : s'.stringLiteral? n' = s.stringLiteral? n := by
  rw [Source.stringLiteral?, h.kind, h.text, Source.stringLiteral?]

theorem staticString (h : Alike s s' n n') : s'.staticString n' = s.staticString n := by
  rw [Source.staticString, h.stringLiteral?, Source.staticString]

theorem numberToken (h : Alike s s' n n') : s'.numberToken n' = s.numberToken n := by
  rw [Source.numberToken, h.text, Source.numberToken]

theorem numeric (h : Alike s s' n n') : s'.numeric n' = s.numeric n := by
  induction n using childrenInduction generalizing n' with
  | h n ih =>
    rw [Source.numeric, Source.numeric, h.kind]
    split
    · exact h.numberToken
    · rcases (h.child? .operator).cases_eq with ⟨ho, ho'⟩ | ⟨o, o', ho, ho', hop⟩
      · simp [ho, ho']
      · rcases (h.child? .argument).cases_eq with ⟨ha, ha'⟩ | ⟨a, a', ha, ha', harg⟩
        · simp [ha, ha']
        · simp only [ho, ho', ha, ha', hop.text, harg.kind, harg.numberToken]
    · rcases h.firstPart?.cases_eq with ⟨hc, hc'⟩ | ⟨c, c', hc, hc', halike⟩
      · split <;> split <;> simp_all
      · have := ih c (mem_children_of_firstPart? hc) halike
        split <;> split <;> simp_all
    · rfl

theorem wholeLiteral? (h : Alike s s' n n') : s'.wholeLiteral? n' = s.wholeLiteral? n := by
  rw [Source.wholeLiteral?, h.numeric, Source.wholeLiteral?]

/-! ## Objects -/

theorem propertyKey (h : Alike s s' n n') : s'.propertyKey n' = s.propertyKey n := by
  rw [Source.propertyKey, h.kind, h.text, Source.propertyKey]

/-- Entries with the same key and alike values. -/
def Entry (s s' : Source) (e e' : String × Node) : Prop := e'.1 = e.1 ∧ Alike s s' e.2 e'.2

theorem entry? (h : Alike s s' n n') : Option.Rel (Entry s s') (s.entry? n) (s'.entry? n') := by
  unfold Source.entry?
  rw [h.kind]
  split
  · exact (h.child? .key).bind fun k k' hk => (h.child? .value).bind fun v v' hv =>
      .some ⟨hk.propertyKey, hv⟩
  · exact .some ⟨h.text, h⟩
  · exact (h.child? .name).bind fun k k' hk => .some ⟨hk.propertyKey, h⟩
  · exact .none

theorem entries (h : Alike s s' n n') :
    List.Forall₂ (Entry s s') (s.entries n) (s'.entries n') :=
  List.rel_filterMap (fun _ _ hc => hc.entry?) h.parts

theorem property? (h : Alike s s' n n') (key : String) :
    Option.Rel (Alike s s') (s.property? n key) (s'.property? n' key) :=
  (h.entries.find? fun e e' he => by rw [he.1]).map fun e e' he => he.2

/-! ## Settings -/

theorem retrySet {e e' : String × Node} (he : Entry s s' e e') (retry : Retry) :
    Retry.set s' retry e' = Retry.set s retry e := by
  obtain ⟨key, value⟩ := e
  obtain ⟨key', value'⟩ := e'
  obtain ⟨rfl, hvalue⟩ := he
  simp only [Retry.set, hvalue.unwrap.numeric, hvalue.unwrap.staticString]

theorem retry? (h : Alike s s' n n') : Retry.read? s' n' = Retry.read? s n := by
  have hkeys := h.entries.filter (p := fun e => Retry.isKey e.1) (q := fun e => Retry.isKey e.1)
    fun e e' he => by rw [he.1]
  simp only [Retry.read?, hkeys.isEmpty_eq, hkeys.foldl_eq fun retry _ _ he => retrySet he retry]

theorem timeout? (h : Alike s s' n n') : Timeout.read? s' n' = Timeout.read? s n :=
  (h.property? "ms").map_eq fun _ _ hc => by rw [hc.unwrap.numeric]

theorem settingsSet {e e' : String × Node} (he : Entry s s' e e') (settings : StepSettings) :
    StepSettings.set s' settings e' = StepSettings.set s settings e := by
  obtain ⟨key, value⟩ := e
  obtain ⟨key', value'⟩ := e'
  obtain ⟨rfl, hvalue⟩ := he
  have hv := hvalue.unwrap
  simp only [StepSettings.set, hv.kind, hv.numeric, hv.staticString, hv.stringLiteral?, hv.retry?,
    hv.timeout?]

theorem ofOptions {x x' : Option Node} (h : Option.Rel (Alike s s') x x') :
    StepSettings.ofOptions s' x' = StepSettings.ofOptions s x := by
  have hread := h.map_eq (f := StepSettings.read s) (g := StepSettings.read s') fun _ _ ho =>
    ho.entries.foldl_eq (fun settings _ _ he => settingsSet he settings) {}
  rw [StepSettings.ofOptions, hread, StepSettings.ofOptions]

theorem withRetry {x x' : Option Node} (h : Option.Rel (Alike s s') x x') :
    StepSettings.withRetry s' x' = StepSettings.withRetry s x := by
  simp only [StepSettings.withRetry, ofOptions h, h.bind_eq fun _ _ ho => ho.retry?]

theorem withTimeout {x x' : Option Node} (h : Option.Rel (Alike s s') x x') :
    StepSettings.withTimeout s' x' = StepSettings.withTimeout s x := by
  simp only [StepSettings.withTimeout, ofOptions h, h.bind_eq fun _ _ ho => ho.timeout?]

theorem streamEntry {e e' : String × Node} (he : Entry s s' e e') (stream : Stream) :
    Reader.streamEntry s' stream e' = Reader.streamEntry s stream e := by
  obtain ⟨key, value⟩ := e
  obtain ⟨key', value'⟩ := e'
  obtain ⟨rfl, hvalue⟩ := he
  have hv := hvalue.unwrap
  simp only [Reader.streamEntry, hv.isFunctionLiteral, hv.numeric, hv.staticString]

/-! ## Operations -/

theorem resultOf? (h : Alike s s' n n') : Option.Rel (Alike s s') n.resultOf? n'.resultOf? :=
  .orElse
    ((h.findOutsideFunctions? fun hc => by rw [hc.kind]).bind fun _ _ hc => hc.firstPart?)
    (h.findOutsideFunctions? fun hc => by rw [hc.kind])

theorem outcome? (h : Alike s s' n n') : Option.Rel (Alike s s') n.outcome? n'.outcome? := by
  refine (h.child? .body).bind fun body body' hbody => ?_
  rw [hbody.kind]
  split
  · exact hbody.resultOf?
  · exact .some hbody

theorem operationCallee (h : Alike s s' n n') : s'.operationCallee n' = s.operationCallee n := by
  induction hsize : n.size using Nat.strongRecOn generalizing n n' with
  | ind k ih =>
    have hop := h.unwrap
    have hcallee := (hop.child? .function).orElse (hop.child? .constructor)
    have houtcome := hop.outcome?
    rw [Source.operationCallee_eq, Source.operationCallee_eq s, hop.kind, hop.isFunctionLiteral,
      hop.calleeText, hop.text, hcallee.map_eq fun _ _ hc => hc.unwrap.calleeText]
    congr 2
    refine congrArg (Option.getD · dynamicText) ?_
    rcases houtcome.cases_eq with ⟨he, he'⟩ | ⟨e, e', he, he', halike⟩
    · rw [he, he']
      rfl
    · have := size_lt_of_outcome? he
      have := n.size_unwrap_le
      simp [he, he', ih e.size (by omega) halike rfl]

/-! ## Bounds -/

theorem loopCondition? (h : Alike s s' n n') :
    Option.Rel (Alike s s') n.loopCondition? n'.loopCondition? := by
  refine (h.child? .condition).bind fun c c' hc => ?_
  rw [hc.kind]
  split
  · exact hc.firstPart?
  · exact .some hc

theorem arrayBound? (h : Alike s s' n n') : n'.arrayBound? = n.arrayBound? := by
  rw [Node.arrayBound?, h.unwrap.kind, ← h.unwrap.parts.length_eq, Node.arrayBound?]

theorem loopStart? (h : Alike s s' n n') :
    Option.Rel (Entry s s') (s.loopStart? n) (s'.loopStart? n') := by
  refine (h.child? .initializer).bind fun c c' hc => ?_
  have hdeclarators := hc.parts.filter (p := (·.kind == .variableDeclarator))
    (q := (·.kind == .variableDeclarator)) fun d d' hd => by rw [hd.kind]
  generalize c.parts.filter _ = ds at hdeclarators ⊢
  generalize c'.parts.filter _ = ds' at hdeclarators ⊢
  match hdeclarators with
  | .nil => exact .none
  | .cons (a := d) (b := d') hd .nil =>
    have hname := hd.childText? .name
    show Option.Rel (Entry s s') ((s.childText? d .name).bind _) ((s'.childText? d' .name).bind _)
    rw [hname]
    exact .bind_same _ fun name => (hd.child? .value).bind fun v v' hv => .some ⟨rfl, hv⟩
  | .cons _ (.cons _ _) => exact .none

theorem loopLimit? (h : Alike s s' n n') (counter : String) :
    Option.Rel (fun p p' => Alike s s' p.1 p'.1 ∧ p'.2 = p.2) (s.loopLimit? counter n)
      (s'.loopLimit? counter n') := by
  unfold Source.loopLimit?
  rw [h.kind, h.childText?, h.childText?]
  refine .bind_same _ fun _ => .bind_same _ fun left => .bind_same _ fun _ => ?_
  refine (h.child? .right).bind fun c c' hc => .bind_same _ fun operator => ?_
  split
  · exact .some ⟨hc, rfl⟩
  · exact .some ⟨hc, rfl⟩
  · exact .none

theorem stepsByOne (h : Alike s s' n n') (counter : String) :
    s'.stepsByOne counter n' = s.stepsByOne counter n := by
  unfold Source.stepsByOne
  rw [h.kind, h.childText?, h.childText?, h.childText?,
    (h.child? .right).bind_eq fun _ _ hc => hc.wholeLiteral?]

theorem countedBound? (h : Alike s s' n n') : s'.countedBound? n' = s.countedBound? n := by
  refine h.loopStart?.bind_eq fun (counter, first) (counter', first') hstart => ?_
  obtain ⟨rfl, hfirst⟩ : counter' = counter ∧ Alike s s' first first' := hstart
  refine h.loopCondition?.bind_eq fun c c' hc => (hc.loopLimit? counter').bind_eq
    fun (limit, inclusive) (limit', inclusive') hend => ?_
  obtain ⟨hlimit, rfl⟩ : Alike s s' limit limit' ∧ inclusive' = inclusive := hend
  refine (h.child? .increment).bind_eq fun i i' hi => ?_
  rw [hi.stepsByOne, hfirst.wholeLiteral?, hlimit.wholeLiteral?]

end Node.Alike

end FlowShape
