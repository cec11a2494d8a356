import FlowShape.Proofs.Reading.Coverage
import FlowShape.Proofs.Reading.Making
import FlowShape.Proofs.Scope.Binding
import FlowShape.Proofs.Workflow.Placement

/-!
# Steps are told by name

A call is one of the step function, or of a method of it, just if it is spelled so. The scopes
between the call and the callback are not asked: where one of them declares the name again, the call
is taken for a step all the same. So names and scopes agree in a callback just if no call by that
name stands behind such a declaration.
-/

namespace FlowShape

namespace StepMethod

def names : List String :=
  ["retry", "withTimeout", "parallel", "race", "getWritable", "getReadable", "streamForEach"]

theorem isSome_ofName?_iff {name : String} : (ofName? name).isSome ↔ name ∈ names := by
  unfold ofName?
  split <;> simp_all [names]

end StepMethod

theorem Text.memberOf?_append (head name : String) :
    memberOf? head (head ++ "." ++ name) = some name := by
  simp [memberOf?]

/-- The shapes of the step function and its methods. -/
def CallShape.isOfStep : CallShape → Bool
  | .step | .method _ => true
  | _ => false

/-- Whether a call is spelled as one of a function or of one of some methods of it. -/
def Source.spells (src : Source) (step : String) (methods : List String) (call : Node) : Bool :=
  call.kind == .callExpression && (call.child? .function).any fun function =>
    let callee := src.calleeText function.unwrap
    callee == step || methods.any (callee == step ++ "." ++ ·)

theorem Source.spells_iff {src : Source} {step : String} {methods : List String} {call : Node} :
    src.spells step methods call ↔ call.kind = .callExpression ∧
      ∃ function, call.child? .function = some function ∧
        (src.calleeText function.unwrap = step ∨
          ∃ name ∈ methods, src.calleeText function.unwrap = step ++ "." ++ name) := by
  simp [spells, Option.any_eq_true]

/-- The roles in which a call is read as a call. -/
def Mode.takesCall : Mode → Bool
  | .expression | .body | .argument | .element => true
  | _ => false

namespace Reader

variable {r : Reader} {step : String} {n : Node}

theorem stepShape?_self (hstep : r.context.step = some step) :
    r.stepShape? step = some .step := by
  simp [stepShape?, hstep]

theorem stepShape?_member (hstep : r.context.step = some step) {name : String}
    {method : StepMethod} (h : StepMethod.ofName? name = some method) :
    r.stepShape? (step ++ "." ++ name) = some (.method method) := by
  have hne : step ++ "." ++ name ≠ step := by
    intro heq
    have hlength := congrArg String.length heq
    simp only [String.length_append] at hlength
    have : ".".length = 1 := rfl
    omega
  simp only [stepShape?, hstep, Option.bind_eq_bind, Option.bind_some, if_neg hne,
    Text.memberOf?_append, h, Option.map_some]

/-- The step function is asked for before anything else. -/
theorem shapeOf?_of_stepShape? {function : Node} {shape : CallShape}
    (hkind : n.kind = .callExpression) (hfunction : n.child? .function = some function)
    (h : r.stepShape? (r.source.calleeText function.unwrap) = some shape) :
    r.shapeOf? n = some shape := by
  simp [shapeOf?, hkind, classify, hfunction, h]

/-- A call is one of the step function just if it is spelled so. -/
theorem isOfStep_iff_spells (hstep : r.context.step = some step) :
    (∃ shape, r.shapeOf? n = some shape ∧ shape.isOfStep) ↔
      r.source.spells step StepMethod.names n := by
  rw [Source.spells_iff]
  constructor
  · rintro ⟨shape, hshape, hof⟩
    obtain ⟨hkind, hclassify⟩ := classify_of_shapeOf? hshape
    obtain ⟨function, hfunction, -⟩ := Option.bind_eq_some_iff.1 hclassify
    have hcallee : r.source.calleeOf n = r.source.calleeText function.unwrap := by
      simp [Source.calleeOf, hfunction]
    refine ⟨hkind, function, hfunction, ?_⟩
    rw [← hcallee]
    cases classified hclassify with
    | step hname => exact .inl (Option.some.inj (hname.symm.trans hstep))
    | method hname hmember hmethod =>
      obtain rfl := Option.some.inj (hstep.symm.trans hname)
      exact .inr ⟨_, StepMethod.isSome_ofName?_iff.1 (Option.isSome_of_eq_some hmethod), hmember⟩
    | helper | sagaStep | iteration | workflowRef => cases hof
  · rintro ⟨hkind, function, hfunction, hcallee | ⟨name, hname, hcallee⟩⟩
    · refine ⟨.step, shapeOf?_of_stepShape? hkind hfunction ?_, rfl⟩
      rw [hcallee, stepShape?_self hstep]
    · obtain ⟨method, hmethod⟩ :=
        Option.isSome_iff_exists.1 (StepMethod.isSome_ofName?_iff.2 hname)
      refine ⟨.method method, shapeOf?_of_stepShape? hkind hfunction ?_, rfl⟩
      rw [hcallee, stepShape?_member hstep hmethod]

/-- A call that is spelled as a step is read as one. -/
theorem isStepAs_of_spells (hstep : r.context.step = some step) {m : Mode} (hm : m.takesCall)
    (h : r.source.spells step ["retry", "withTimeout"] n) : r.isStepAs m n := by
  obtain ⟨hkind, function, hfunction, hcallee⟩ := Source.spells_iff.1 h
  have hshape : ∃ shape, r.shapeOf? n = some shape ∧ shape.isStep := by
    rcases hcallee with hcallee | ⟨name, hname, hcallee⟩
    · refine ⟨.step, shapeOf?_of_stepShape? hkind hfunction ?_, rfl⟩
      rw [hcallee, stepShape?_self hstep]
    · simp only [List.mem_cons, List.not_mem_nil, or_false] at hname
      rcases hname with rfl | rfl
      · refine ⟨.method .retry, shapeOf?_of_stepShape? hkind hfunction ?_, rfl⟩
        rw [hcallee, stepShape?_member hstep rfl]
      · refine ⟨.method .withTimeout, shapeOf?_of_stepShape? hkind hfunction ?_, rfl⟩
        rw [hcallee, stepShape?_member hstep rfl]
  obtain ⟨shape, hshape, hisStep⟩ := hshape
  cases m with
  | expression | body | argument => simp [isStepAs, hshape, hisStep]
  | element => simp [isStepAs, hkind, (classify_of_shapeOf? hshape).2, hisStep]
  | _ => cases hm

/-! ## Calls that reading gets to -/

/-- The steps in what reading gets to are reached from the callback. -/
theorem Reaches.reachedNodes_subset {root : Node} {m : Mode} {s : Site}
    (h : r.Reaches root m s) :
    reachedNodes (r.candidates m true s.node) ⊆
      reachedNodes (r.candidates .callback true root) := by
  induction h with
  | root => exact List.Subset.refl _
  | @child m m' s i c _ hc hpassage ih =>
    intro n hn
    apply ih
    rw [reachedNodes_candidates]
    apply List.mem_append_right
    apply Node.mem_collect_of_getElem? hc
    rwa [hpassage]

theorem Reaches.mem_reachedNodes {root : Node} {m : Mode} {s : Site} (h : r.Reaches root m s)
    (hs : r.isStepAs m s.node) :
    s.node ∈ reachedNodes (r.candidates .callback true root) := by
  apply h.reachedNodes_subset
  rw [reachedNodes_candidates]
  simp [hs]

end Reader

namespace Assembly

variable (a : Assembly) (entry : EntryPoint) (callback : Node)

/-- What reading reaches as a step becomes a step of the workflow. -/
theorem exists_step_of_mem (used : Nat) {n : Node}
    (h : n ∈ Reader.reachedNodes ((a.reader entry callback).candidates .callback true callback)) :
    ∃ f ∈ (a.workflow entry callback used).1.walk, f.isStep ∧
      f.tag.location = a.emitter.location n := by
  have hread := (Reader.stepOrigins_read (a.reader entry callback) .callback callback).mem_iff.2 h
  rw [Reader.read_callback] at hread
  have hkept := (a.emitter.emits_body (a.outline entry callback) { used }).kept
  have hlocation : a.emitter.location n ∈
      ((a.workflow entry callback used).1.walk.filter Flow.isStep).map (·.tag.location) := by
    refine hkept.steps.symm ▸ List.mem_map_of_mem hread
  obtain ⟨f, hf, hn⟩ := List.mem_map.1 hlocation
  obtain ⟨hf, hisStep⟩ := List.mem_filter.1 hf
  exact ⟨f, hf, hisStep, hn⟩

/-- The step function goes by the name that the callback gives it. -/
theorem name_of_parameterBinding? {step : String} {b : ParameterBinding}
    (hstep : (a.reader entry callback).context.step = some step)
    (hb : a.source.parameterBinding? callback "step" = some b) : b.name = step := by
  simp only [reader, context] at hstep
  split at hstep
  · cases hstep
  · simpa [hb] using hstep

end Assembly

/-- The calls of a step function are told by its name alone. Each of them that is read is a step,
also where the name is declared again; names and scopes agree just if this is nowhere the case. -/
theorem Analysis.steps_are_told_by_name (options : Options) (now : Timestamp) (src : Source)
    (tree : Node) (used : Nat) (h : tree.label.flawed = false)
    (hgrammar : ∀ n ∈ tree.nodes, src.NamesParameters n) :
    ∃ a after, Analysis.run options now src tree used = .ok (a, after) ∧
      ∀ w ∈ a.allWorkflows, ∃ entry ∈ src.entryPoints tree options, ∃ callback before,
        Assembly.bodyOf? entry = some callback ∧
        w.bare = ((Assembly.ofFile options now src tree).workflow entry callback before).1 ∧
        let r := (Assembly.ofFile options now src tree).reader entry callback
        ∀ step, r.context.step = some step →
          (∀ m s, r.Reaches callback m s →
            ((∃ shape, r.shapeOf? s.node = some shape ∧ shape.isOfStep) ↔
              src.spells step StepMethod.names s.node) ∧
            (m.takesCall → src.spells step ["retry", "withTimeout"] s.node →
              ∃ f ∈ w.walk, f.isStep ∧ f.tag.location =
                if options.includeLocations then some (src.location s.node) else none) ∧
            ((src.parameterBinding? callback "step").isSome → s ≠ .root callback →
              (src.binder? step s = some callback ↔ src.isRedeclared step s = false))) ∧
          ((∀ m s, r.Reaches callback m s → src.isRedeclared step s →
              ¬∃ shape, r.shapeOf? s.node = some shape ∧ shape.isOfStep) ↔
            ∀ m s, r.Reaches callback m s → src.spells step StepMethod.names s.node →
              src.isRedeclared step s = false) := by
  refine Analysis.exists_run_forall h (fun w hw => hw) ?_
  intro entry hentry callback before hbody
  obtain ⟨hcallback, hliteral⟩ := Option.filter_eq_some_iff.1 hbody
  have hmem : callback ∈ tree.nodes := Source.mem_nodes_of_entryPoints hentry hcallback
  have hnodes : ∀ n ∈ callback.nodes, src.NamesParameters n := fun n hn =>
    hgrammar n ((Node.nodes_sublist_of_mem hmem).subset hn)
  refine ⟨entry, hentry, callback, before, hbody, rfl, ?_⟩
  intro r step hstep
  constructor
  · intro m s hs
    refine ⟨Reader.isOfStep_iff_spells hstep, ?_, ?_⟩
    · intro hm hspells
      exact Assembly.exists_step_of_mem _ entry callback before
        (hs.mem_reachedNodes (Reader.isStepAs_of_spells hstep hm hspells))
    · intro hbinding hinside
      obtain ⟨b, hb⟩ := Option.isSome_iff_exists.1 hbinding
      have hbinds : src.scopeBinds step callback := by
        rw [← Assembly.name_of_parameterBinding? _ entry callback hstep hb]
        exact Source.scopeBinds_of_parameterBinding? hliteral hnodes rfl hb
      exact Source.binder?_eq_root_iff hbinds hs.site_below hinside
  · constructor
    · intro hlaw m s hs hspells
      rw [← Bool.not_eq_true]
      intro hredeclared
      exact hlaw m s hs hredeclared ((Reader.isOfStep_iff_spells hstep).2 hspells)
    · intro hnone m s hs hredeclared hshape
      rw [hnone m s hs ((Reader.isOfStep_iff_spells hstep).1 hshape)] at hredeclared
      cases hredeclared

namespace Sample

def shadowSource : Source :=
  .ofString "sample.ts" ("\n".intercalate
    ["run((step) => \x7b",
     "  xs.map((step) => step(x));",
     "\x7d);",
     ""])

def shadowTree : Node :=
  part .program 0 49 [
    callStatement 0 (stepFunction 4 (part .statementBlock 14 46 [
      token "\x7b" 14,
      part .expressionStatement 18 44 [
        part .callExpression 18 43 [
          role .function .memberExpression 18 24 [
            role .object .identifier 18 20 [], token "." 20,
            role .property (.other "property_identifier") 21 24 []],
          role .arguments .arguments 24 43 [
            token "(" 24, stepFunction 25 (stepCall 35), token ")" 42]],
        token ";" 43],
      token "\x7d" 45]))]

end Sample

/-- The inner callback calls its own parameter, and the call is a step of the workflow. -/
theorem Analysis.steps_are_told_by_name_shadow :
    Sample.shadowTree.label.flawed = false ∧
      (∀ n ∈ Sample.shadowTree.nodes, Sample.shadowSource.NamesParameters n) ∧
      ∃ a after w, Analysis.run { assumeImported := true } ⟨0, 0, 0⟩ Sample.shadowSource
          Sample.shadowTree 0 = .ok (a, after) ∧ w ∈ a.allWorkflows ∧
        w.walk.map Flow.typeName = ["loop", "step"] ∧
        ∃ entry callback s, Assembly.bodyOf? entry = some callback ∧
          Sample.shadowSource.isRedeclared "step" s ∧
          Sample.shadowSource.binder? "step" s ≠ some callback ∧
          ∃ f ∈ w.walk, f.isStep ∧
            f.tag.location = some (Sample.shadowSource.location s.node) := by
  have hrun : ((Analysis.run { assumeImported := true } ⟨0, 0, 0⟩ Sample.shadowSource
      Sample.shadowTree 0).toOption.map fun p => p.1.allWorkflows.map fun w =>
        w.walk.map Flow.typeName) = some [["loop", "step"]] := by decide +kernel
  have hgrammar : ∀ n ∈ Sample.shadowTree.nodes, Sample.shadowSource.NamesParameters n := by
    decide +kernel
  have hsites : (Sample.shadowSource.entryPoints Sample.shadowTree { assumeImported := true }).all
      fun entry => (Assembly.bodyOf? entry).all fun callback =>
        let r := (Assembly.ofFile { assumeImported := true } ⟨0, 0, 0⟩ Sample.shadowSource
          Sample.shadowTree).reader entry callback
        r.context.step = some "step" ∧
          (Sample.shadowSource.parameterBinding? callback "step").isSome ∧
          (r.sitesIn .callback [] callback).any fun p =>
            p.1.takesCall && !p.2.above.isEmpty && Sample.shadowSource.isRedeclared "step" p.2 &&
              Sample.shadowSource.spells "step" ["retry", "withTimeout"] p.2.node := by
    decide +kernel
  obtain ⟨a, after, h, hall⟩ := Analysis.steps_are_told_by_name { assumeImported := true }
    ⟨0, 0, 0⟩ Sample.shadowSource Sample.shadowTree 0 rfl hgrammar
  rw [h] at hrun
  obtain ⟨w, ws, hw, htypes, -⟩ := List.map_eq_cons_iff.1 (Option.some.inj hrun)
  have hmem : w ∈ a.allWorkflows := by simp [hw]
  obtain ⟨entry, hentry, callback, before, hbody, -, hcalls⟩ := hall w hmem
  have hsite := List.all_eq_true.1 hsites entry hentry
  simp only [hbody, Option.all_some, decide_eq_true_eq] at hsite
  obtain ⟨hstep, hbinding, hany⟩ := hsite
  obtain ⟨⟨m, s⟩, hs, htakes⟩ := List.any_eq_true.1 hany
  simp only [Bool.and_eq_true, Bool.not_eq_true', List.isEmpty_eq_false_iff] at htakes
  obtain ⟨⟨⟨hm, habove⟩, hredeclared⟩, hspells⟩ := htakes
  obtain ⟨-, hnode, hbinder⟩ := (hcalls "step" hstep).1 m s (Reader.Reaches.root.of_mem_sitesIn hs)
  have hinside : s ≠ .root callback := by
    rintro rfl
    exact habove rfl
  refine ⟨rfl, hgrammar, a, after, w, h, hmem, htypes, entry, callback, s, hbody, hredeclared, ?_,
    hnode hm hspells⟩
  rw [Ne, hbinder hbinding hinside, hredeclared]
  decide

end FlowShape
