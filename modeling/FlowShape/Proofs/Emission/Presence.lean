import FlowShape.Proofs.Emission.Derivation
import FlowShape.Proofs.Outline.Inside

/-!
# Which outlines become nodes

An outline by itself tells whether it becomes a node and of which type: work always does, branches
made by statements and helpers do even without work, and loops, switches and ternaries only with
work inside. Unknown statements become nodes if they are reported. So whether a call adopts the
combinator in its callback can be told without emitting anything.
-/

namespace FlowShape

namespace Outline

def isUnknown : Outline → Bool
  | leaf _ l => l.isUnknown
  | _ => false

/-- Outlines that stand for work. -/
def isWork : Outline → Bool
  | leaf _ l => !l.isUnknown
  | gather .. | enclose .. => true
  | _ => false

/-- Whether an outline holds any work. -/
def works (o : Outline) : Bool := o.walk.any isWork

theorem works_eq (o : Outline) : o.works = (o.isWork || o.inside.any works) := by
  rw [works, walk_eq, List.any_cons, List.any_flatMap]
  rfl

theorem any_works_singleton (o : Outline) :
    [o].any works = (o.isWork || o.inside.any works) := by
  rw [List.any_cons, List.any_nil, Bool.or_false, works_eq]

/-- Branches that become a node even without work. -/
def isStanding : Outline → Bool
  | ifElse .. | guarded .. => true
  | _ => false

/-- Whether an outline becomes a node if unknown statements are reported or not. -/
def emits (report : Bool) (o : Outline) : Bool :=
  o.isStanding || o.works || o.isUnknown && report

/-- Loops, switches and ternaries become nodes around work only. -/
theorem emits_eq_any_works {o : Outline} (hstanding : o.isStanding = false)
    (hwork : o.isWork = false) (hunknown : o.isUnknown = false) (report : Bool) :
    o.emits report = o.inside.any works := by
  simp [emits, works_eq o, hstanding, hwork, hunknown]

/-- Whether an outline is counted as a conditional. -/
def isBranch : Outline → Bool
  | ifElse .. | guarded .. => true
  | ternary _ _ os ps => (os ++ ps).any works
  | _ => false

def branchCount (os : List Outline) : Nat := (os.flatMap walk).countP isBranch

theorem branchCount_append (os ps : List Outline) :
    branchCount (os ++ ps) = branchCount os + branchCount ps := by
  rw [branchCount, List.flatMap_append, List.countP_append]
  rfl

theorem branchCount_singleton (o : Outline) :
    branchCount [o] = branchCount o.inside + if o.isBranch then 1 else 0 := by
  rw [branchCount, List.flatMap_singleton, walk_eq, List.countP_cons]
  rfl

/-- The type of the node that an outline becomes. -/
def typeName : Outline → String
  | leaf _ l => l.typeName
  | gather _ c _ _ _ | enclose _ c _ _ _ => c.stem
  | ifElse .. | ternary .. | guarded .. => "conditional"
  | switch .. => "switch"
  | loop .. => "loop"

/-- Whether a call stands for the one combinator that its callback becomes. -/
def adopts (report : Bool) : Outline → Bool
  | enclose _ c _ _ body => (body.filter (·.emits report)).map typeName == [c.stem]
  | _ => false

end Outline

namespace Flow

theorem hasWork_singleton (f : Flow) : hasWork [f] = (f.isCallShape || hasWork f.children) := by
  simp [hasWork_eq_any_walk, walk_eq f]

theorem hasWork_combinator (c : Combinator) (tag : Tag) (callee : String) (ns : List Flow) :
    hasWork [c.node tag callee ns] = true := by
  cases c <;> simp [hasWork_singleton, Combinator.node, isCallShape]

end Flow

namespace Emits

variable {e : Emitter} {os : List Outline} {l m : Ledger} {ns : List Flow}

/-- There is work among the nodes just if there is in the outlines. -/
theorem hasWork_eq (h : Emits e os l ns m) : Flow.hasWork ns = os.any Outline.works := by
  induction h with
  | nil => rfl
  | append _ _ ih ih' => simp [ih, ih']
  | leaf origin leaf l _ =>
    rw [Flow.hasWork_singleton, Outline.any_works_singleton]
    cases leaf <;> rfl
  | unreported origin leaf l hu _ =>
    rw [Outline.any_works_singleton]
    simp [Outline.isWork, Outline.inside, hu, Flow.hasWork]
  | join xs ys _ _ _ ih =>
    rw [← ih]
    simp only [Flow.hasWork_append, Flow.hasWork_sequence]
  | gather origin c callee name _ _ | enclose origin c callee name _ _ _ =>
    rw [Flow.hasWork_combinator, Outline.any_works_singleton]
    rfl
  | adopt origin c callee name _ hf _ =>
    obtain ⟨d, tag, callee, cs, -, rfl⟩ := Combinator.eq_node_of_adopt? hf
    rw [Flow.hasWork_combinator, Outline.any_works_singleton]
    rfl
  | ifElse origin condition _ _ _ ih | guarded origin condition _ _ ih
  | ternary origin condition _ _ _ _ ih | switch origin expression _ _ _ ih
  | loop origin repetition _ _ _ ih =>
    rw [Outline.any_works_singleton, Flow.hasWork_singleton]
    simpa [Outline.isWork, Outline.inside, Flow.isCallShape, Flow.children] using ih
  | idleTernary origin condition _ hw ih =>
    rw [← Flow.hasWork_append, Bool.not_eq_true'] at hw
    rw [Outline.any_works_singleton, Outline.inside, ← ih, hw]
    rfl
  | idleSwitch origin expression _ hw ih =>
    rw [← Flow.hasWork_flatMap_body, Bool.not_eq_true'] at hw
    rw [Outline.any_works_singleton, Outline.inside, ← ih, hw]
    rfl
  | idleLoop origin repetition _ hw ih =>
    rw [Bool.not_eq_true'] at hw
    rw [Outline.any_works_singleton, Outline.inside, ← ih, hw]
    rfl

/-- Conditionals are counted where they are emitted, also if what is around them is left out. -/
theorem conditionalCount_eq (h : Emits e os l ns m) :
    m.stats.conditionalCount = l.stats.conditionalCount + Outline.branchCount os := by
  induction h with
  | nil => rfl
  | append _ _ ih ih' => rw [ih', ih, Outline.branchCount_append, Nat.add_assoc]
  | leaf origin leaf l _ => cases leaf <;> rfl
  | unreported => rfl
  | join _ _ _ _ _ ih => exact ih
  | gather origin c callee name _ ih | enclose origin c callee name _ _ ih =>
    rw [Outline.branchCount_singleton]
    cases c <;> exact ih
  | adopt origin c callee name _ _ ih => rw [Outline.branchCount_singleton]; exact ih
  | ifElse origin condition _ _ _ ih | guarded origin condition _ _ ih =>
    simp only [Ledger.stats_counted, Stats.addConditional] at ih
    rw [Outline.branchCount_singleton]
    simp only [Ledger.stats_numbered, Outline.inside, Outline.isBranch, ih, if_true]
    omega
  | ternary origin condition h hw _ _ ih =>
    rw [← Flow.hasWork_append, h.hasWork_eq] at hw
    simp only [Outline.branchCount_singleton, Outline.isBranch, hw, Outline.inside]
    exact congrArg (· + 1) ih
  | idleTernary origin condition h hw ih =>
    rw [← Flow.hasWork_append, h.hasWork_eq, Bool.not_eq_true'] at hw
    simp only [Outline.branchCount_singleton, Outline.isBranch, hw, Outline.inside]
    exact ih
  | switch origin expression _ _ _ ih | idleSwitch origin expression _ _ ih
  | loop origin repetition _ _ _ ih | idleLoop origin repetition _ _ ih =>
    rw [Outline.branchCount_singleton]
    exact ih

end Emits

namespace Combinator

@[simp] theorem typeName_node (c : Combinator) (tag : Tag) (callee : String) (ns : List Flow) :
    (c.node tag callee ns).typeName = c.stem := by
  cases c <;> rfl

/-- What is adopted is a lone node of the same sort. -/
theorem isSome_adopt?_iff (c : Combinator) (name : Option String) (ns : List Flow) :
    (c.adopt? name ns).isSome ↔ ns.map Flow.typeName = [c.stem] := by
  match ns with
  | [] => cases c <;> simp [adopt?]
  | [f] => cases c <;> cases f <;> simp [adopt?, Flow.typeName, stem]
  | f :: g :: ns => cases c <;> simp [adopt?]

theorem typeName_of_adopt? {c : Combinator} {name : Option String} {ns : List Flow} {f : Flow}
    (h : c.adopt? name ns = some f) : f.typeName = c.stem := by
  have htypes := (c.isSome_adopt?_iff name ns).1 (Option.isSome_of_eq_some h)
  obtain ⟨d, tag, callee, cs, rfl, rfl⟩ := eq_node_of_adopt? h
  simpa using htypes

end Combinator

namespace Emitter

variable (e : Emitter)

theorem hasWork_outlines (os : List Outline) (l : Ledger) :
    Flow.hasWork ((e.outlines os).run l).1 = os.any Outline.works :=
  ((e.runs_outlines os).emits l).hasWork_eq

theorem hasWork_body (os : List Outline) (l : Ledger) :
    Flow.hasWork ((e.body os).run l).1 = os.any Outline.works :=
  (e.emits_body os l).hasWork_eq

theorem any_hasWork_cases (cases : List (Case Outline)) (l : Ledger) :
    (((e.cases cases).run l).1.any fun c => Flow.hasWork c.body) =
      (cases.flatMap Case.body).any Outline.works := by
  induction cases generalizing l with
  | nil => rfl
  | cons c cases ih =>
    rw [List.flatMap_cons, List.any_append, ← ih, ← e.hasWork_body]
    rfl

/-- A call becomes one node of its sort, whether that is adopted or not. -/
theorem map_typeName_enclose (origin : Node) (c : Combinator) (callee : String)
    (name : Option String) (body : List Outline) (l : Ledger) :
    ((e.outline (.enclose origin c callee name body)).run l).1.map Flow.typeName = [c.stem] := by
  rw [outline, Emit.run_bind]
  split
  · next f hf =>
    change [f.typeName] = _
    rw [Combinator.typeName_of_adopt? hf]
  · exact congrArg (· :: []) (c.typeName_node ..)

/-- An outline becomes one node of its type, or none. -/
theorem map_typeName_outline (o : Outline) (l : Ledger) :
    ((e.outline o).run l).1.map Flow.typeName =
      if o.emits e.reportUnknown then [o.typeName] else [] := by
  cases o with
  | leaf origin leaf =>
    rw [outline, run_leaf]
    cases leaf <;> cases e.reportUnknown <;> rfl
  | gather origin c callee name branches =>
    exact congrArg (· :: []) (c.typeName_node ..)
  | enclose origin c callee name body => exact e.map_typeName_enclose ..
  | ifElse origin condition os ps => cases ps <;> rfl
  | guarded origin condition body => rfl
  | ternary origin condition os ps =>
    have hemits : (Outline.ternary origin condition os ps).emits e.reportUnknown =
        (Flow.hasWork ((e.outlines os).run l).1 ||
          Flow.hasWork ((e.outlines ps).run ((e.outlines os).run l).2).1) := by
      rw [hasWork_outlines, hasWork_outlines, ← List.any_append]
      exact Outline.emits_eq_any_works rfl rfl rfl _
    rw [run_ternary, hemits]
    dsimp only
    split <;> rfl
  | switch origin expression cases =>
    have hemits : (Outline.switch origin expression cases).emits e.reportUnknown =
        ((e.cases cases).run l).1.any fun c => Flow.hasWork c.body := by
      rw [any_hasWork_cases]
      exact Outline.emits_eq_any_works rfl rfl rfl _
    rw [run_switch, hemits]
    dsimp only
    split <;> rfl
  | loop origin repetition body =>
    have hemits : (Outline.loop origin repetition body).emits e.reportUnknown =
        Flow.hasWork ((e.body body).run l).1 := by
      rw [hasWork_body]
      exact Outline.emits_eq_any_works rfl rfl rfl _
    rw [run_loop, hemits]
    dsimp only
    split <;> rfl

theorem map_typeName_outlines (os : List Outline) (l : Ledger) :
    ((e.outlines os).run l).1.map Flow.typeName =
      (os.filter (·.emits e.reportUnknown)).map Outline.typeName := by
  induction os generalizing l with
  | nil => rfl
  | cons o os ih =>
    rw [outlines, Emit.run_bind, Emit.run_bind]
    change (_ ++ _ : List Flow).map _ = _
    rw [List.map_append, ih, map_typeName_outline, List.filter_cons]
    split <;> rfl

/-- Whether a call adopts what its callback becomes can be told from the outline. -/
theorem isSome_adopt?_outlines (origin : Node) (c : Combinator) (callee : String)
    (name : Option String) (body : List Outline) (l : Ledger) :
    (c.adopt? name ((e.outlines body).run l).1).isSome =
      (Outline.enclose origin c callee name body).adopts e.reportUnknown := by
  rw [Bool.eq_iff_iff, c.isSome_adopt?_iff, map_typeName_outlines, Outline.adopts, beq_iff_eq]

end Emitter

end FlowShape
