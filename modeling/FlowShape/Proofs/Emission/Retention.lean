import FlowShape.Proofs.Emission.Derivation
import FlowShape.Proofs.Outline.Inside

/-!
# Leaves that are kept

Emission keeps the order of leaves and leaves out unknown statements only: every other leaf of an
outline becomes one node, at the place from which the leaf was read.
-/

namespace FlowShape

namespace Flow

def isLeaf : Flow → Bool
  | step .. | sagaStep .. | stream .. | workflowRef .. | unknown .. => true
  | _ => false

/-- The places and types of the leaves among nodes, in the order of a walk. -/
def leafMarks (ns : List Flow) : List (Option Location × String) :=
  ((ns.flatMap walk).filter isLeaf).map fun f => (f.tag.location, f.typeName)

@[simp] theorem leafMarks_nil : leafMarks [] = [] := rfl

@[simp] theorem leafMarks_append (ns ms : List Flow) :
    leafMarks (ns ++ ms) = leafMarks ns ++ leafMarks ms := by
  simp [leafMarks]

theorem leafMarks_of_not_isLeaf {f : Flow} (h : f.isLeaf = false) :
    leafMarks [f] = leafMarks f.children := by
  simp [leafMarks, walk_eq f, h]

theorem leafMarks_join (tag : Tag) (xs ns ys : List Flow) :
    leafMarks (xs ++ [sequence tag ns] ++ ys) = leafMarks (xs ++ ns ++ ys) := by
  have hjoin : leafMarks [sequence tag ns] = leafMarks ns := leafMarks_of_not_isLeaf rfl
  simp only [leafMarks_append, hjoin]

theorem leafMarks_leaf (leaf : Leaf) (tag : Tag) :
    leafMarks [leaf.node tag] = [(tag.location, leaf.typeName)] := by
  rw [leafMarks, List.flatMap_singleton, Leaf.walk_node]
  cases leaf <;> rfl

theorem leafMarks_combinator (c : Combinator) (tag : Tag) (callee : String) (ns : List Flow) :
    leafMarks [c.node tag callee ns] = leafMarks ns := by
  cases c <;> exact leafMarks_of_not_isLeaf rfl

theorem typeName_eq_unknown {f : Flow} (hleaf : f.isLeaf) (h : f.isCallShape = false) :
    f.typeName = "unknown" := by
  cases f <;> simp_all [isLeaf, isCallShape, typeName]

end Flow

/-- The places and types of the leaves of outlines. -/
def Emitter.leafMarks (e : Emitter) (os : List Outline) : List (Option Location × String) :=
  (os.flatMap Outline.leaves).map fun p => (e.location p.1, p.2.typeName)

theorem Emitter.leafMarks_of_not_isLeaf (e : Emitter) {o : Outline} (h : o.isLeaf = false) :
    e.leafMarks [o] = e.leafMarks o.inside := by
  simp [leafMarks, Outline.leaves_of_not_isLeaf h]

/-- Whether a mark is not that of an unknown statement. -/
def isKnown (mark : Option Location × String) : Bool := mark.2 != "unknown"

theorem filter_isKnown_of_not_hasWork {ns : List Flow} (h : !Flow.hasWork ns) :
    (Flow.leafMarks ns).filter isKnown = [] := by
  simp only [Flow.hasWork_eq_any_walk, Bool.not_eq_true', List.any_eq_false] at h
  simp only [Flow.leafMarks, List.filter_eq_nil_iff, List.mem_map, List.mem_filter]
  rintro _ ⟨f, ⟨hf, hleaf⟩, rfl⟩
  simp [isKnown, Flow.typeName_eq_unknown hleaf (by simpa using h f hf)]

/-- The leaves of the nodes are those of the outlines, up to unknown statements. -/
structure Kept (e : Emitter) (os : List Outline) (ns : List Flow) : Prop where
  sublist : (Flow.leafMarks ns).Sublist (e.leafMarks os)
  known : (Flow.leafMarks ns).filter isKnown = (e.leafMarks os).filter isKnown

namespace Kept

variable {e : Emitter} {os ps : List Outline} {ns ms : List Flow}

theorem append (h : Kept e os ns) (h' : Kept e ps ms) : Kept e (os ++ ps) (ns ++ ms) where
  sublist := by
    simpa [Emitter.leafMarks] using h.sublist.append h'.sublist
  known := by
    have := h.known
    have := h'.known
    simp_all [Emitter.leafMarks]

theorem wrap {o : Outline} {f : Flow} (h : Kept e o.inside f.children) (ho : o.isLeaf = false)
    (hf : f.isLeaf = false) : Kept e [o] [f] := by
  obtain ⟨hsublist, hknown⟩ := h
  rw [← e.leafMarks_of_not_isLeaf ho, ← Flow.leafMarks_of_not_isLeaf hf] at hsublist hknown
  exact ⟨hsublist, hknown⟩

/-- Nodes without work may be left out. -/
theorem drop {o : Outline} (h : Kept e o.inside ns) (ho : o.isLeaf = false)
    (hw : !Flow.hasWork ns) : Kept e [o] [] where
  sublist := List.nil_sublist _
  known := by
    rw [e.leafMarks_of_not_isLeaf ho, ← h.known, filter_isKnown_of_not_hasWork hw]
    rfl

end Kept

/-- The nodes from which the steps among outlines were read. -/
def Outline.stepOrigins (os : List Outline) : List Node :=
  ((os.flatMap Outline.leaves).filter (·.2.isStep)).map (·.1)

/-- Whether a mark is that of a step. -/
def isStepMark (mark : Option Location × String) : Bool :=
  mark.2 == "step" || mark.2 == "saga-step"

theorem filter_isStepMark (marks : List (Option Location × String)) :
    (marks.filter isKnown).filter isStepMark = marks.filter isStepMark := by
  rw [List.filter_filter]
  refine List.filter_congr fun mark _ => ?_
  by_cases h : mark.2 = "unknown" <;> simp [isStepMark, isKnown, h]

/-- Steps are never left out, and each stands at the place from which it was read. -/
theorem Kept.steps {e : Emitter} {os : List Outline} {ns : List Flow} (h : Kept e os ns) :
    ((ns.flatMap Flow.walk).filter Flow.isStep).map (·.tag.location) =
      (Outline.stepOrigins os).map e.location := by
  have hnodes : ((ns.flatMap Flow.walk).filter Flow.isStep).map (·.tag.location) =
      ((Flow.leafMarks ns).filter isStepMark).map (·.1) := by
    simp only [Flow.leafMarks, List.filter_map, List.filter_filter, List.map_map]
    congr 1
    refine List.filter_congr fun f _ => ?_
    cases f <;> rfl
  have hleaves : (Outline.stepOrigins os).map e.location =
      ((e.leafMarks os).filter isStepMark).map (·.1) := by
    simp only [Outline.stepOrigins, Emitter.leafMarks, List.filter_map, List.map_map]
    congr 1
    refine List.filter_congr fun ⟨origin, leaf⟩ _ => ?_
    cases leaf <;> rfl
  rw [hnodes, hleaves, ← filter_isStepMark, h.known, filter_isStepMark]

namespace Emits

variable {e : Emitter} {os : List Outline} {l m : Ledger} {ns : List Flow}

theorem kept (h : Emits e os l ns m) : Kept e os ns := by
  induction h with
  | nil => exact ⟨.refl _, rfl⟩
  | append _ _ ih ih' => exact ih.append ih'
  | leaf origin leaf l _ =>
    have hmarks : Flow.leafMarks [leaf.node (e.tagAt l leaf.stem origin leaf.name leaf.key)] =
        e.leafMarks [.leaf origin leaf] := by
      rw [Flow.leafMarks_leaf]
      simp [Emitter.leafMarks, Emitter.tagAt]
    exact ⟨hmarks ▸ .refl _, congrArg _ hmarks⟩
  | unreported origin leaf l hu _ =>
    refine ⟨List.nil_sublist _, ?_⟩
    cases leaf <;> simp_all [Leaf.isUnknown, Emitter.leafMarks, Leaf.typeName, isKnown]
  | join xs ys _ _ _ ih =>
    obtain ⟨hsublist, hknown⟩ := ih
    rw [← Flow.leafMarks_join] at hsublist hknown
    exact ⟨hsublist, hknown⟩
  | gather origin c callee name _ ih | enclose origin c callee name _ _ ih =>
    exact Kept.wrap (by cases c <;> exact ih) rfl (by cases c <;> rfl)
  | adopt origin c callee name _ hf ih =>
    obtain ⟨d, tag, callee, cs, rfl, rfl⟩ := Combinator.eq_node_of_adopt? hf
    obtain ⟨hsublist, hknown⟩ := ih
    rw [Flow.leafMarks_combinator] at hsublist hknown
    have hcs : Kept e _ cs := ⟨hsublist, hknown⟩
    exact Kept.wrap (by cases d <;> exact hcs) rfl (by cases d <;> rfl)
  | ifElse origin condition _ _ _ ih | guarded origin condition _ _ ih
  | ternary origin condition _ _ _ _ ih | switch origin expression _ _ _ ih
  | loop origin repetition _ _ _ ih =>
    exact Kept.wrap (by simpa [Outline.inside, Flow.children] using ih) rfl rfl
  | idleTernary origin condition _ hw ih =>
    exact Kept.drop ih rfl (by simpa using hw)
  | idleSwitch origin expression _ hw ih =>
    rw [← Flow.hasWork_flatMap_body] at hw
    exact Kept.drop ih rfl hw
  | idleLoop origin repetition _ hw ih => exact Kept.drop ih rfl hw

end Emits

/-! ## Warnings -/

/-- What is to be warned of in outlines, leaf by leaf. -/
def Emitter.warnings (e : Emitter) (os : List Outline) : List Warning :=
  (os.flatMap Outline.leaves).flatMap fun p => p.2.warnings (e.location p.1)

namespace Emitter

variable (e : Emitter)

@[simp] theorem warnings_nil : e.warnings [] = [] := rfl

@[simp] theorem warnings_append (os ps : List Outline) :
    e.warnings (os ++ ps) = e.warnings os ++ e.warnings ps := by
  simp [warnings]

@[simp] theorem warnings_leaf (origin : Node) (leaf : Leaf) :
    e.warnings [.leaf origin leaf] = leaf.warnings (e.location origin) := by
  simp [warnings]

theorem warnings_of_not_isLeaf {o : Outline} (h : o.isLeaf = false) :
    e.warnings [o] = e.warnings o.inside := by
  simp [warnings, Outline.leaves_of_not_isLeaf h]

end Emitter

theorem Leaf.warnings_eq_nil {leaf : Leaf} (h : leaf.isUnknown) (location : Option Location) :
    leaf.warnings location = [] := by
  cases leaf <;> first | rfl | cases h

/-- Each leaf is warned of once, also below a loop, switch or ternary that is left out. -/
theorem Emits.warnings {e : Emitter} {os : List Outline} {l m : Ledger} {ns : List Flow}
    (h : Emits e os l ns m) : m.warnings = l.warnings ++ e.warnings os := by
  induction h with
  | nil => simp
  | append _ _ ih ih' => simp [ih, ih']
  | leaf => simp
  | unreported origin leaf l hu => simp [Leaf.warnings_eq_nil hu]
  | join _ _ _ _ _ ih => exact ih
  | _ =>
    rw [e.warnings_of_not_isLeaf rfl]
    assumption

end FlowShape
