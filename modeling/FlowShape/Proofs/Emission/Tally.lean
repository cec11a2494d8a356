import FlowShape.Proofs.Emission.Derivation
import FlowShape.Proofs.Tree.Builder
import FlowShape.Proofs.Workflow.Production

/-!
# Statistics and emitted nodes

The statistics of a workflow count nodes while they are emitted, before loops, switches and
ternaries without work are left out. What is left out holds no work, and with it no loop and no
switch, which are emitted around work only. So all counts but those of conditionals and of unknown
statements are exact, and these two can only be too large.
-/

namespace FlowShape

namespace Flow

/-- How a node counts in the statistics. -/
def count : Flow → Stats → Stats
  | step .. | sagaStep .. => Stats.addStep
  | sequence .. => id
  | parallel _ mode _ _ => (Combinator.parallel mode).count
  | race .. => Combinator.race.count
  | stream .. => Stats.addStream
  | conditional .. => Stats.addConditional
  | switch .. => Stats.addSwitch
  | loop .. => Stats.addLoop
  | workflowRef .. => Stats.addWorkflowRef
  | unknown .. => Stats.addUnknown

/-- The number of nodes of a type. -/
def countOf (type : String) (nodes : List Flow) : Nat := nodes.countP (·.typeName == type)

theorem countOf_nil (type : String) : countOf type [] = 0 := rfl

theorem countOf_cons (type : String) (f : Flow) (nodes : List Flow) :
    countOf type (f :: nodes) = countOf type nodes + if f.typeName == type then 1 else 0 :=
  List.countP_cons

theorem isCallShape_of_isStep {f : Flow} (h : f.isStep) : f.isCallShape := by
  cases f <;> simp_all [isStep, isCallShape]

@[simp] theorem count_leaf (leaf : Leaf) (tag : Tag) : (leaf.node tag).count = leaf.count := by
  cases leaf <;> rfl

@[simp] theorem count_combinator (c : Combinator) (tag : Tag) (callee : String) (ns : List Flow) :
    (c.node tag callee ns).count = c.count := by
  cases c <;> rfl

/-- The types of work other than steps. -/
def workTypes : List String := ["parallel", "race", "stream", "workflow-ref"]

theorem isCallShape_of_typeName_mem {f : Flow} (h : f.typeName ∈ workTypes) : f.isCallShape := by
  cases f <;> simp [typeName, workTypes, isCallShape] at *

end Flow

namespace Stats

/-- The statistics `t` are those of `s` and of the nodes; of conditionals and of unknown statements
there may be more. -/
structure Tallies (s : Stats) (nodes : List Flow) (t : Stats) : Prop where
  totalSteps : t.totalSteps = s.totalSteps + nodes.countP Flow.isStep
  switchCount : t.switchCount = s.switchCount + Flow.countOf "switch" nodes
  loopCount : t.loopCount = s.loopCount + Flow.countOf "loop" nodes
  parallelCount : t.parallelCount = s.parallelCount + Flow.countOf "parallel" nodes
  raceCount : t.raceCount = s.raceCount + Flow.countOf "race" nodes
  streamCount : t.streamCount = s.streamCount + Flow.countOf "stream" nodes
  workflowRefCount : t.workflowRefCount = s.workflowRefCount + Flow.countOf "workflow-ref" nodes
  conditionalCount : s.conditionalCount + Flow.countOf "conditional" nodes ≤ t.conditionalCount
  unknownCount : s.unknownCount + Flow.countOf "unknown" nodes ≤ t.unknownCount

namespace Tallies

variable {s t u : Stats} {nodes others : List Flow}

theorem nil (s : Stats) : Tallies s [] s := by
  constructor <;> simp [Flow.countOf]

theorem append (h : Tallies s nodes t) (h' : Tallies t others u) :
    Tallies s (nodes ++ others) u := by
  obtain ⟨h₁, h₂, h₃, h₄, h₅, h₆, h₇, h₈, h₉⟩ := h
  obtain ⟨k₁, k₂, k₃, k₄, k₅, k₆, k₇, k₈, k₉⟩ := h'
  constructor <;> simp only [Flow.countOf, List.countP_append] at * <;> omega

theorem perm (h : Tallies s nodes t) (p : nodes.Perm others) : Tallies s others t := by
  obtain ⟨h₁, h₂, h₃, h₄, h₅, h₆, h₇, h₈, h₉⟩ := h
  constructor <;> simp only [Flow.countOf, ← p.countP_eq] at * <;> assumption

/-- One more node. -/
theorem cons (h : Tallies s nodes t) (f : Flow) : Tallies s (f :: nodes) (f.count t) := by
  obtain ⟨h₁, h₂, h₃, h₄, h₅, h₆, h₇, h₈, h₉⟩ := h
  cases f <;> constructor <;>
    simp [Flow.countOf_cons, List.countP_cons, Flow.count, Flow.isStep, Flow.typeName,
      Combinator.count, addStep, addStream, addConditional, addSwitch, addLoop, addWorkflowRef,
      addUnknown] <;> omega

/-- Only its type matters about a node. -/
theorem replace {f g : Flow} (h : Tallies s (f :: nodes) t) (hg : g.typeName = f.typeName)
    (hs : g.isStep = f.isStep) : Tallies s (g :: nodes) t := by
  obtain ⟨h₁, h₂, h₃, h₄, h₅, h₆, h₇, h₈, h₉⟩ := h
  constructor <;> simp only [Flow.countOf_cons, List.countP_cons, hg, hs] at * <;> assumption

/-- A conditional is counted before what is inside it. -/
theorem consConditional (h : Tallies s.addConditional nodes t) (tag : Tag) (condition : Condition)
    (cs : List Flow) (as : Option (List Flow)) :
    Tallies s (.conditional tag condition cs as :: nodes) t := by
  obtain ⟨h₁, h₂, h₃, h₄, h₅, h₆, h₇, h₈, h₉⟩ := h
  simp only [addConditional] at h₁ h₂ h₃ h₄ h₅ h₆ h₇ h₈ h₉
  constructor <;> simp [Flow.countOf_cons, Flow.isStep, Flow.typeName] <;> omega

/-- Nodes may be forgotten if no exact count has to do with them. -/
theorem forget (h : Tallies s nodes t) (hn : ∀ f ∈ nodes, f.isCallShape = false)
    (hl : ∀ f ∈ nodes, f.typeName ≠ "loop" ∧ f.typeName ≠ "switch") : Tallies s [] t := by
  have absent (type : String) (ht : ∀ f ∈ nodes, f.typeName ≠ type) :
      Flow.countOf type nodes = 0 := by simpa [Flow.countOf, List.countP_eq_zero] using ht
  have shapes (type : String) (ht : type ∈ Flow.workTypes) : Flow.countOf type nodes = 0 :=
    absent type fun f hf hft => by
      have hw := Flow.isCallShape_of_typeName_mem (f := f) (by rwa [hft])
      simp [hn f hf] at hw
  have steps : nodes.countP Flow.isStep = 0 :=
    List.countP_eq_zero.2 fun f hf hs => by simpa [hn f hf] using Flow.isCallShape_of_isStep hs
  have parallels := shapes "parallel" (by simp [Flow.workTypes])
  have races := shapes "race" (by simp [Flow.workTypes])
  have streams := shapes "stream" (by simp [Flow.workTypes])
  have refs := shapes "workflow-ref" (by simp [Flow.workTypes])
  have loops := absent "loop" fun f hf => (hl f hf).1
  have switches := absent "switch" fun f hf => (hl f hf).2
  obtain ⟨h₁, h₂, h₃, h₄, h₅, h₆, h₇, h₈, h₉⟩ := h
  constructor <;> simp only [Flow.countOf_nil, List.countP_nil] <;> omega

end Tallies

end Stats

/-! ## Loops and switches hold work -/

namespace Flow

/-- Loops and switches among the nodes hold work. -/
def Busy (nodes : List Flow) : Prop :=
  ∀ f ∈ nodes, f.typeName = "loop" ∨ f.typeName = "switch" → f.containsCallShape

theorem Busy.cons {f : Flow} {nodes : List Flow} (h : Busy nodes)
    (hf : f.typeName = "loop" ∨ f.typeName = "switch" → f.containsCallShape) : Busy (f :: nodes) :=
  List.forall_mem_cons.2 ⟨hf, h⟩

theorem not_isCallShape_of_not_hasWork {ns : List Flow} (h : !hasWork ns) :
    ∀ f ∈ ns.flatMap walk, f.isCallShape = false := by
  intro f hf
  simp only [hasWork_eq_any_walk, Bool.not_eq_true', List.any_eq_false] at h
  simpa using h f hf

/-- Without work there is no loop and no switch. -/
theorem Busy.absent {ns : List Flow} (h : Busy (ns.flatMap walk)) (hn : !hasWork ns) :
    ∀ f ∈ ns.flatMap walk, f.typeName ≠ "loop" ∧ f.typeName ≠ "switch" := by
  intro f hf
  rw [← not_or]
  intro ht
  obtain ⟨g, hg, hs⟩ := List.any_eq_true.1 (h f hf ht)
  rw [not_isCallShape_of_not_hasWork hn g (walk_subset_flatMap_walk hf hg)] at hs
  cases hs

end Flow

namespace Emits

variable {e : Emitter} {os : List Outline} {l m : Ledger} {ns : List Flow}

theorem busy (h : Emits e os l ns m) : Flow.Busy (ns.flatMap Flow.walk) := by
  induction h with
  | nil | unreported | idleTernary | idleSwitch | idleLoop => exact fun _ hf => nomatch hf
  | append _ _ ih ih' =>
    rw [List.flatMap_append]
    exact List.forall_mem_append.2 ⟨ih, ih'⟩
  | leaf origin leaf l _ =>
    rw [List.flatMap_singleton, Leaf.walk_node]
    refine .cons nofun ?_
    cases leaf <;> simp [Leaf.node, Flow.typeName]
  | join xs ys _ _ _ ih =>
    intro f hf
    exact ih.cons (by simp [Flow.typeName]) f ((Flow.flatMap_walk_join ..).mem_iff.1 hf)
  | gather origin c callee name _ ih | enclose origin c callee name _ _ ih =>
    rw [List.flatMap_singleton, Combinator.walk_node]
    refine .cons ih ?_
    cases c <;> simp [Combinator.node, Flow.typeName]
  | adopt origin c callee name _ hf ih =>
    obtain ⟨d, tag, callee, cs, rfl, rfl⟩ := Combinator.eq_node_of_adopt? hf
    rw [List.flatMap_singleton, Combinator.walk_node] at ih ⊢
    refine .cons (List.forall_mem_cons.1 ih).2 ?_
    cases d <;> simp [Combinator.node, Flow.typeName]
  | ifElse origin condition _ _ _ ih | guarded origin condition _ _ ih
  | ternary origin condition _ _ _ _ ih =>
    rw [List.flatMap_singleton, Flow.walk_conditional]
    exact .cons (by simpa using ih) (by simp [Flow.typeName])
  | switch origin expression _ hw _ ih =>
    rw [List.flatMap_singleton, Flow.walk_switch]
    rw [← Flow.hasWork_flatMap_body] at hw
    exact .cons ih fun _ => Flow.containsCallShape_of_hasWork hw
  | loop origin repetition _ hw _ ih =>
    rw [List.flatMap_singleton, Flow.walk_loop]
    exact .cons ih fun _ => Flow.containsCallShape_of_hasWork hw

theorem tallies (h : Emits e os l ns m) :
    Stats.Tallies l.stats (ns.flatMap Flow.walk) m.stats := by
  induction h with
  | nil | unreported => exact .nil _
  | append _ _ ih ih' =>
    rw [List.flatMap_append]
    exact ih.append ih'
  | leaf origin leaf l _ =>
    rw [List.flatMap_singleton, Leaf.walk_node]
    simpa using (Stats.Tallies.nil l.stats).cons
      (leaf.node (e.tagAt l leaf.stem origin leaf.name leaf.key))
  | join xs ys _ _ _ ih => exact (ih.cons _).perm (Flow.flatMap_walk_join ..).symm
  | gather origin c callee name _ ih | enclose origin c callee name _ _ ih =>
    rw [List.flatMap_singleton, Combinator.walk_node]
    simpa using ih.cons (c.node (e.tagAt _ c.stem origin name none) callee _)
  | adopt origin c callee name _ hf ih =>
    obtain ⟨d, tag, callee, cs, rfl, rfl⟩ := Combinator.eq_node_of_adopt? hf
    rw [List.flatMap_singleton, Combinator.walk_node] at ih ⊢
    exact ih.replace (by cases d <;> rfl) (by cases d <;> rfl)
  | ifElse origin condition _ _ _ ih | guarded origin condition _ _ ih =>
    rw [List.flatMap_singleton, Flow.walk_conditional]
    exact .consConditional (by simpa using ih) _ _ _ _
  | ternary origin condition _ _ _ _ ih =>
    rw [List.flatMap_singleton, Flow.walk_conditional]
    exact ih.cons _
  | switch origin expression _ hw _ ih =>
    rw [List.flatMap_singleton, Flow.walk_switch]
    exact ih.cons _
  | loop origin repetition _ hw _ ih =>
    rw [List.flatMap_singleton, Flow.walk_loop]
    exact ih.cons _
  | idleTernary origin condition h hw ih =>
    rw [← Flow.hasWork_append] at hw
    exact ih.forget (Flow.not_isCallShape_of_not_hasWork hw) (h.busy.absent hw)
  | idleSwitch origin expression h hw ih =>
    rw [← Flow.hasWork_flatMap_body] at hw
    exact ih.forget (Flow.not_isCallShape_of_not_hasWork hw) (h.busy.absent hw)
  | idleLoop origin repetition h hw ih =>
    exact ih.forget (Flow.not_isCallShape_of_not_hasWork hw) (h.busy.absent hw)

end Emits

/-! ## Statistics of a workflow -/

theorem Assembly.tallies_workflow (a : Assembly) (entry : EntryPoint) (callback : Node)
    (used : Nat) :
    Stats.Tallies {} (a.workflow entry callback used).1.walk
      (a.workflow entry callback used).1.metadata.stats :=
  (a.emitter.emits_body (a.outline entry callback) { used }).tallies

/-- The statistics of every workflow agree with its nodes. Only conditionals and unknown statements
may be counted that are not there. -/
theorem Analysis.stats_agree_with_walk (options : Options) (now : Timestamp) (src : Source)
    (tree : Node) (used : Nat) (h : tree.label.flawed = false) :
    ∃ a after, Analysis.run options now src tree used = .ok (a, after) ∧
      ∀ w ∈ a.allWorkflows,
        w.metadata.stats.totalSteps = w.stepCount ∧
        w.metadata.stats.switchCount = Flow.countOf "switch" w.walk ∧
        w.metadata.stats.loopCount = Flow.countOf "loop" w.walk ∧
        w.metadata.stats.parallelCount = Flow.countOf "parallel" w.walk ∧
        w.metadata.stats.raceCount = Flow.countOf "race" w.walk ∧
        w.metadata.stats.streamCount = Flow.countOf "stream" w.walk ∧
        w.metadata.stats.workflowRefCount = Flow.countOf "workflow-ref" w.walk ∧
        Flow.countOf "conditional" w.walk ≤ w.metadata.stats.conditionalCount ∧
        Flow.countOf "unknown" w.walk ≤ w.metadata.stats.unknownCount := by
  refine Analysis.exists_run_forall h (fun w hw => hw) ?_
  intro entry _ callback before _
  obtain ⟨h₁, h₂, h₃, h₄, h₅, h₆, h₇, h₈, h₉⟩ :=
    (Assembly.ofFile options now src tree).tallies_workflow entry callback before
  simp only [Nat.zero_add] at h₁ h₂ h₃ h₄ h₅ h₆ h₇ h₈ h₉
  exact ⟨h₁, h₂, h₃, h₄, h₅, h₆, h₇, h₈, h₉⟩

namespace Sample

def headSource : Source :=
  .ofString "sample.ts" ("\n".intercalate
    ["run(async (step) => \x7b",
     "  while (a) if (b) \x7b\x7d",
     "  if (step(c)) \x7b step(d); step(e); \x7d",
     "\x7d);",
     ""])

def headTree : Node :=
  part .program 0 85 [
    part .expressionStatement 0 84 [
      part .callExpression 0 83 [
        role .function .identifier 0 3 [],
        role .arguments .arguments 3 83 [
          token "(" 3,
          part .arrowFunction 4 82 [
            token "async" 4,
            role .parameters .formalParameters 10 16 [
              token "(" 10, part .requiredParameter 11 15 [role .pattern .identifier 11 15 []],
              token ")" 15],
            token "=>" 17,
            role .body .statementBlock 20 82 [
              token "\x7b" 20,
              part .whileStatement 24 43 [
                token "while" 24,
                condition 30 (part .identifier 31 32 []),
                role .body .ifStatement 34 43 [
                  token "if" 34,
                  condition 37 (part .identifier 38 39 []),
                  role .consequence .statementBlock 41 43 [token "\x7b" 41, token "\x7d" 42]]],
              part .ifStatement 46 80 [
                token "if" 46,
                condition 49 (stepCall 50),
                role .consequence .statementBlock 59 80 [
                  token "\x7b" 59,
                  part .expressionStatement 61 69 [stepCall 61, token ";" 68],
                  part .expressionStatement 70 78 [stepCall 70, token ";" 77],
                  token "\x7d" 79]],
              token "\x7d" 81]],
          token ")" 82]],
      token ";" 83]]

end Sample

/-- The conditional inside the loop without work is counted and is not a node. -/
theorem Analysis.stats_agree_with_walk_head :
    Sample.headTree.label.flawed = false ∧
      ∃ a after w, Analysis.run { assumeImported := true } ⟨0, 0, 0⟩ Sample.headSource
          Sample.headTree 0 = .ok (a, after) ∧ w ∈ a.allWorkflows ∧
        w.metadata.stats.totalSteps = w.stepCount ∧ w.stepCount = 2 ∧
        w.metadata.stats.loopCount = Flow.countOf "loop" w.walk ∧
        w.metadata.stats.conditionalCount = 2 ∧ Flow.countOf "conditional" w.walk = 1 := by
  have hrun : ((Analysis.run { assumeImported := true } ⟨0, 0, 0⟩ Sample.headSource
      Sample.headTree 0).toOption.map fun p => p.1.allWorkflows.map fun w =>
        (w.stepCount, w.metadata.stats.conditionalCount, Flow.countOf "conditional" w.walk)) =
      some [(2, 2, 1)] := by decide +kernel
  obtain ⟨a, after, h, hall⟩ := Analysis.stats_agree_with_walk { assumeImported := true }
    ⟨0, 0, 0⟩ Sample.headSource Sample.headTree 0 rfl
  rw [h] at hrun
  simp only [Except.toOption, Option.map_some, Option.some.injEq, List.map_eq_cons_iff] at hrun
  obtain ⟨w, ws, hw, hcounts, -⟩ := hrun
  simp only [Prod.mk.injEq] at hcounts
  have hmem : w ∈ a.allWorkflows := by simp [hw]
  obtain ⟨hsteps, -, hloops, -⟩ := hall w hmem
  exact ⟨rfl, a, after, w, h, hmem, hsteps, hcounts.1, hloops, hcounts.2⟩

end FlowShape
