import FlowShape.Proofs.Emission.Presence
import FlowShape.Proofs.Emission.Tally

/-!
# Emission with and without unknown statements

Nodes are compared by their faces, which leave out numbers and what is below a node. Unknown
statements that are reported leave all faces as they were, with one exception: a call of the step
function that stands for the only combinator in its callback no longer does so once an unknown
statement stands beside that combinator. Such calls are doubled: there is a node for the call and
one for the combinator. `Discloses` says how the faces differ, and has a rule for each way in which
an outline is emitted.
-/

namespace FlowShape

/-! ## Faces -/

def Tag.unnumbered (t : Tag) : Tag := { t with id := ⟨""⟩ }

/-- A case without its body. -/
def Case.blank {α : Type} (c : Case α) : Case Flow := ⟨c.value, c.isDefault, []⟩

namespace Flow

/-- A node without its number and without what is below it. -/
def face : Flow → Flow
  | step tag s => step tag.unnumbered s
  | sagaStep tag s => sagaStep tag.unnumbered s
  | sequence tag _ => sequence tag.unnumbered []
  | parallel tag mode callee _ => parallel tag.unnumbered mode callee []
  | race tag callee _ => race tag.unnumbered callee []
  | stream tag s => stream tag.unnumbered s
  | conditional tag condition _ as => conditional tag.unnumbered condition [] (as.map fun _ => [])
  | switch tag expression cases => switch tag.unnumbered expression (cases.map Case.blank)
  | loop tag repetition _ => loop tag.unnumbered repetition []
  | workflowRef tag ref => workflowRef tag.unnumbered ref
  | unknown tag u => unknown tag.unnumbered u

/-- Nodes that stand for something in the source that was understood. -/
def isUnderstood : Flow → Bool
  | sequence .. | unknown .. => false
  | _ => true

def isCombinator : Flow → Bool
  | parallel .. | race .. => true
  | _ => false

/-- The faces of all that was understood, in the order of a walk. -/
def faces (ns : List Flow) : List Flow := ((ns.flatMap walk).filter isUnderstood).map face

@[simp] theorem typeName_face (f : Flow) : f.face.typeName = f.typeName := by
  cases f <;> rfl

@[simp] theorem faces_nil : faces [] = [] := rfl

@[simp] theorem faces_append (ns ms : List Flow) : faces (ns ++ ms) = faces ns ++ faces ms := by
  simp [faces]

theorem faces_singleton (f : Flow) :
    faces [f] = if f.isUnderstood then f.face :: faces f.children else faces f.children := by
  rw [faces, List.flatMap_singleton, walk_eq, List.filter_cons]
  split <;> rfl

theorem faces_compose (ns : List Flow) (l : Ledger) :
    faces ((Emit.compose ns).run l).1 = faces ns := by
  rw [Emit.run_compose]
  split
  · exact faces_singleton _
  · rfl

/-- A combinator under a new name, if there is one. -/
def named (name : Option String) : Flow → Flow
  | parallel tag mode callee cs => parallel { tag with name := name <|> tag.name } mode callee cs
  | race tag callee cs => race { tag with name := name <|> tag.name } callee cs
  | f => f

@[simp] theorem typeName_named (name : Option String) (f : Flow) :
    (f.named name).typeName = f.typeName := by
  cases f <;> rfl

@[simp] theorem isCombinator_named (name : Option String) (f : Flow) :
    (f.named name).isCombinator = f.isCombinator := by
  cases f <;> rfl

theorem named_of_not_isCombinator {f : Flow} (h : f.isCombinator = false) (name : Option String) :
    f.named name = f := by
  cases f <;> first | rfl | cases h

/-- The faces other than those of combinators. -/
def plain (fs : List Flow) : List Flow := fs.filter (!·.isCombinator)

theorem plain_modifyHead_named (name : Option String) (fs : List Flow) :
    plain (fs.modifyHead (named name)) = plain fs := by
  cases fs with
  | nil => rfl
  | cons f fs =>
    simp only [plain, List.modifyHead_cons, List.filter_cons, isCombinator_named]
    cases h : f.isCombinator with
    | true => rfl
    | false => rw [named_of_not_isCombinator h]

theorem countOf_modifyHead_named (type : String) (name : Option String) (fs : List Flow) :
    countOf type (fs.modifyHead (named name)) = countOf type fs := by
  cases fs with
  | nil => rfl
  | cons f fs => simp only [List.modifyHead_cons, countOf_cons, typeName_named]

end Flow

namespace Combinator

theorem faces_node (c : Combinator) (tag : Tag) (callee : String) (ns : List Flow) :
    Flow.faces [c.node tag callee ns] = c.node tag.unnumbered callee [] :: Flow.faces ns := by
  cases c <;> exact Flow.faces_singleton _

theorem isCombinator_node (c : Combinator) (tag : Tag) (callee : String) (ns : List Flow) :
    (c.node tag callee ns).isCombinator := by
  cases c <;> rfl

/-- What is adopted keeps its face up to its name. -/
theorem faces_of_adopt? {c : Combinator} {name : Option String} {ns : List Flow} {f : Flow}
    (h : c.adopt? name ns = some f) :
    Flow.faces [f] = (Flow.faces ns).modifyHead (Flow.named name) := by
  obtain ⟨d, tag, callee, cs, rfl, rfl⟩ := eq_node_of_adopt? h
  rw [faces_node, faces_node]
  cases d <;> rfl

end Combinator

/-! ## Faces of an emission -/

namespace Emitter

variable (e : Emitter)

/-- The tag of a face. -/
def faceTag (origin : Node) (name key : Option String) : Tag :=
  ⟨⟨""⟩, name, key, e.location origin⟩

theorem faces_body (os : List Outline) (l : Ledger) :
    Flow.faces ((e.body os).run l).1 = Flow.faces ((e.outlines os).run l).1 :=
  Flow.faces_compose _ _

theorem faces_leaf (origin : Node) (leaf : Leaf) (l : Ledger) :
    Flow.faces ((e.outline (.leaf origin leaf)).run l).1 =
      if leaf.isUnknown then [] else [leaf.node (e.faceTag origin leaf.name leaf.key)] := by
  rw [outline, run_leaf]
  cases leaf with
  | unknown => cases e.reportUnknown <;> rfl
  | _ => exact Flow.faces_singleton _

theorem faces_gather (origin : Node) (c : Combinator) (callee : String) (name : Option String)
    (branches : List (List Outline)) (l : Ledger) :
    Flow.faces ((e.outline (.gather origin c callee name branches)).run l).1 =
      c.node (e.faceTag origin name none) callee [] ::
        Flow.faces ((e.branches branches).run l).1 :=
  c.faces_node ..

theorem faces_enclose (origin : Node) (c : Combinator) (callee : String) (name : Option String)
    (body : List Outline) (l : Ledger) :
    Flow.faces ((e.outline (.enclose origin c callee name body)).run l).1 =
      if (Outline.enclose origin c callee name body).adopts e.reportUnknown then
        (Flow.faces ((e.outlines body).run l).1).modifyHead (Flow.named name)
      else c.node (e.faceTag origin name none) callee [] ::
        Flow.faces ((e.outlines body).run l).1 := by
  rw [outline, Emit.run_bind, ← e.isSome_adopt?_outlines origin c callee name body l]
  split
  · next f hf =>
    rw [hf, Option.isSome_some, if_pos rfl]
    exact Combinator.faces_of_adopt? hf
  · next hf =>
    rw [hf, if_neg (by simp)]
    exact c.faces_node ..

theorem faces_conditional (origin : Node) (condition : Condition) (cs : List Flow)
    (as : Option (List Flow)) (l : Ledger) :
    Flow.faces ((e.conditional origin condition cs as).run l).1 =
      .conditional (e.faceTag origin none none) condition [] (as.map fun _ => []) ::
        (Flow.faces cs ++ Flow.faces (as.getD [])) := by
  rw [← Flow.faces_append]
  exact Flow.faces_singleton _

theorem faces_ifElse_none (origin : Node) (condition : String) (os : List Outline) (l : Ledger) :
    Flow.faces ((e.outline (.ifElse origin condition os none)).run l).1 =
      .conditional (e.faceTag origin none none) { text := condition } [] none ::
        Flow.faces ((e.outlines os).run (l.counted Stats.addConditional)).1 := by
  rw [run_ifElse_none, faces_conditional, faces_body]
  simp

/-- The alternate is emitted from the account that the consequent leaves. -/
theorem faces_ifElse_some (origin : Node) (condition : String) (os ps : List Outline)
    (l : Ledger) :
    Flow.faces ((e.outline (.ifElse origin condition os (some ps))).run l).1 =
      .conditional (e.faceTag origin none none) { text := condition } [] (some []) ::
        (Flow.faces ((e.outlines os).run (l.counted Stats.addConditional)).1 ++
          Flow.faces ((e.outlines ps).run
            ((e.body os).run (l.counted Stats.addConditional)).2).1) := by
  rw [run_ifElse_some, faces_conditional, faces_body, Option.getD_some, faces_body]
  rfl

theorem faces_guarded (origin : Node) (condition : Condition) (body : List Outline) (l : Ledger) :
    Flow.faces ((e.outline (.guarded origin condition body)).run l).1 =
      .conditional (e.faceTag origin none none) condition [] none ::
        Flow.faces ((e.outlines body).run (l.counted Stats.addConditional)).1 := by
  rw [run_guarded, faces_conditional, faces_body]
  simp

theorem faces_ternary (origin : Node) (condition : String) (os ps : List Outline) (l : Ledger) :
    Flow.faces ((e.outline (.ternary origin condition os ps)).run l).1 =
      if (os ++ ps).any Outline.works then
        .conditional (e.faceTag origin none none) { text := condition } [] (some []) ::
          (Flow.faces ((e.outlines os).run l).1 ++
            Flow.faces ((e.outlines ps).run ((e.outlines os).run l).2).1)
      else [] := by
  rw [run_ternary, List.any_append, ← e.hasWork_outlines os l,
    ← e.hasWork_outlines ps ((e.outlines os).run l).2]
  dsimp only
  split
  · rw [faces_conditional, Flow.faces_compose, Option.getD_some, Flow.faces_compose]
    rfl
  · rfl

theorem map_blank_cases (cases : List (Case Outline)) (l : Ledger) :
    ((e.cases cases).run l).1.map Case.blank = cases.map Case.blank := by
  induction cases generalizing l with
  | nil => rfl
  | cons c cases ih => exact congrArg (c.blank :: ·) (ih _)

theorem faces_switch (origin : Node) (expression : String) (cases : List (Case Outline))
    (l : Ledger) :
    Flow.faces ((e.outline (.switch origin expression cases)).run l).1 =
      if (cases.flatMap Case.body).any Outline.works then
        .switch (e.faceTag origin none none) expression (cases.map Case.blank) ::
          Flow.faces (((e.cases cases).run l).1.flatMap Case.body)
      else [] := by
  rw [run_switch, ← e.any_hasWork_cases cases l]
  dsimp only
  split
  · rw [← e.map_blank_cases cases l]
    exact Flow.faces_singleton _
  · rfl

theorem faces_loop (origin : Node) (repetition : Repetition) (body : List Outline) (l : Ledger) :
    Flow.faces ((e.outline (.loop origin repetition body)).run l).1 =
      if body.any Outline.works then
        .loop (e.faceTag origin none none) repetition [] ::
          Flow.faces ((e.outlines body).run l).1
      else [] := by
  rw [run_loop, ← e.hasWork_body body l, ← e.faces_body]
  dsimp only
  split
  · exact Flow.faces_singleton _
  · rfl

end Emitter

/-! ## Doubled calls -/

namespace Outline

/-- A call that stands for the only combinator in its callback as long as the unknown statements
beside it are left out. -/
def isDoubled (o : Outline) : Bool := o.adopts false && o.inside.any isUnknown

/-- The doubled calls among outlines and inside them. -/
def doubles (os : List Outline) : List Outline := (os.flatMap walk).filter isDoubled

@[simp] theorem doubles_nil : doubles [] = [] := rfl

@[simp] theorem doubles_append (os ps : List Outline) :
    doubles (os ++ ps) = doubles os ++ doubles ps := by
  simp [doubles]

theorem doubles_of_isDoubled {o : Outline} (h : o.isDoubled) :
    doubles [o] = o :: doubles o.inside := by
  rw [doubles, List.flatMap_singleton, walk_eq, List.filter_cons_of_pos h]
  rfl

theorem doubles_of_not_isDoubled {o : Outline} (h : o.isDoubled = false) :
    doubles [o] = doubles o.inside := by
  rw [doubles, List.flatMap_singleton, walk_eq, List.filter_cons_of_neg (by simp [h])]
  rfl

theorem isWork_of_isDoubled {o : Outline} (h : o.isDoubled) : o.isWork := by
  cases o with
  | enclose => rfl
  | _ => cases h

/-- Without work no call is doubled. -/
theorem doubles_of_not_works {o : Outline} (h : o.works = false) : doubles [o] = [] := by
  rw [doubles, List.flatMap_singleton, List.filter_eq_nil_iff]
  intro p hp hdoubled
  exact List.any_eq_false.1 h p hp (isWork_of_isDoubled hdoubled)

theorem typeName_of_isUnknown {o : Outline} (h : o.isUnknown) : o.typeName = "unknown" := by
  cases o with
  | leaf _ leaf =>
    cases leaf with
    | unknown => rfl
    | _ => cases h
  | _ => cases h

/-- Reported statements stop a call from adopting, and nothing else does. -/
theorem adopts_true (o : Outline) :
    o.adopts true = (o.adopts false && !o.inside.any isUnknown) := by
  cases o with
  | enclose origin c callee name body =>
    cases hany : body.any isUnknown with
    | true =>
      obtain ⟨u, hu, hunknown⟩ := List.any_eq_true.1 hany
      have hemits : u.emits true := by simp [emits, hunknown]
      have hmem : u.typeName ∈ (body.filter (·.emits true)).map typeName :=
        List.mem_map_of_mem (List.mem_filter.2 ⟨hu, hemits⟩)
      simp only [inside, hany, Bool.not_true, Bool.and_false, adopts, beq_eq_false_iff_ne]
      intro htypes
      rw [htypes, List.mem_singleton, typeName_of_isUnknown hunknown] at hmem
      cases c <;> simp [Combinator.stem] at hmem
    | false =>
      have hfilter : body.filter (·.emits true) = body.filter (·.emits false) := by
        refine List.filter_congr fun p hp => ?_
        simp [emits, List.any_eq_false.1 hany p hp]
      simp only [adopts, inside, hany, hfilter, Bool.not_false, Bool.and_true]
  | _ => rfl

end Outline

/-! ## What reporting changes -/

/-- How the faces `gs` with unknown statements differ from the faces `fs` without: each doubled call
is a combinator of its own. -/
structure Discloses (os : List Outline) (fs gs : List Flow) : Prop where
  plain : Flow.plain gs = Flow.plain fs
  counts (type : String) : Flow.countOf type gs =
    Flow.countOf type fs + (Outline.doubles os).countP (·.typeName == type)
  same : Outline.doubles os = [] → gs = fs

namespace Discloses

variable {os ps : List Outline} {o : Outline} {fs gs fs' gs' : List Flow}

theorem nil : Discloses [] [] [] := ⟨rfl, fun _ => rfl, fun _ => rfl⟩

theorem append (h : Discloses os fs gs) (h' : Discloses ps fs' gs') :
    Discloses (os ++ ps) (fs ++ fs') (gs ++ gs') where
  plain := by
    have hplain := h.plain
    have hplain' := h'.plain
    simp_all [Flow.plain]
  counts type := by
    have hcounts := h.counts type
    have hcounts' := h'.counts type
    simp only [Flow.countOf, Outline.doubles_append, List.countP_append] at *
    omega
  same hnone := by
    obtain ⟨hnone, hnone'⟩ := List.append_eq_nil_iff.1 (Outline.doubles_append os ps ▸ hnone)
    rw [h.same hnone, h'.same hnone']

/-- Without work nothing is there in either case. -/
theorem idle (ho : o.isWork = false) (h : ¬o.inside.any Outline.works) :
    Discloses [o] [] [] := by
  have hworks : o.works = false := by
    rw [Outline.works_eq, ho, Bool.false_or]
    exact Bool.eq_false_iff.2 h
  refine ⟨rfl, fun type => ?_, fun _ => rfl⟩
  rw [Outline.doubles_of_not_works hworks]
  rfl

/-- The same node around both. -/
theorem wrap (h : Discloses o.inside fs gs) (ho : o.isDoubled = false) (f : Flow) :
    Discloses [o] (f :: fs) (f :: gs) := by
  have hdoubles := Outline.doubles_of_not_isDoubled ho
  refine ⟨?_, fun type => ?_, fun hnone => ?_⟩
  · have hplain := h.plain
    simp only [Flow.plain, List.filter_cons] at *
    rw [hplain]
  · have hcounts := h.counts type
    rw [Flow.countOf_cons, Flow.countOf_cons, hdoubles]
    omega
  · rw [h.same (hdoubles ▸ hnone)]

/-- The call stands for its combinator in both. -/
theorem adopt (h : Discloses o.inside fs gs) (ho : o.isDoubled = false) (name : Option String) :
    Discloses [o] (fs.modifyHead (Flow.named name)) (gs.modifyHead (Flow.named name)) := by
  have hdoubles := Outline.doubles_of_not_isDoubled ho
  refine ⟨?_, fun type => ?_, fun hnone => ?_⟩
  · rw [Flow.plain_modifyHead_named, Flow.plain_modifyHead_named, h.plain]
  · rw [Flow.countOf_modifyHead_named, Flow.countOf_modifyHead_named, hdoubles, h.counts]
  · rw [h.same (hdoubles ▸ hnone)]

/-- The call stands for its combinator in one and beside it in the other. -/
theorem double (h : Discloses o.inside fs gs) (ho : o.isDoubled) {f : Flow}
    (hf : f.isCombinator) (htype : f.typeName = o.typeName) (name : Option String) :
    Discloses [o] (fs.modifyHead (Flow.named name)) (f :: gs) := by
  have hdoubles := Outline.doubles_of_isDoubled ho
  refine ⟨?_, fun type => ?_, fun hnone => ?_⟩
  · rw [Flow.plain_modifyHead_named, ← h.plain]
    simp [Flow.plain, hf]
  · rw [Flow.countOf_modifyHead_named, Flow.countOf_cons, hdoubles, List.countP_cons, htype,
      h.counts]
    omega
  · rw [hdoubles] at hnone
    cases hnone

/-- Reporting shows in the faces just if a call is doubled. -/
theorem eq_iff (h : Discloses os fs gs) : gs = fs ↔ Outline.doubles os = [] := by
  refine ⟨?_, h.same⟩
  rintro rfl
  rw [List.eq_nil_iff_forall_not_mem]
  intro o ho
  have hcounts := h.counts o.typeName
  have hpos : 0 < (Outline.doubles os).countP (·.typeName == o.typeName) :=
    List.countP_pos_iff.2 ⟨o, ho, beq_self_eq_true _⟩
  omega

end Discloses

namespace Emitter

/-- An emitter that reports unknown statements or leaves them out. -/
def reporting (e : Emitter) (report : Bool) : Emitter := { e with reportUnknown := report }

@[simp] theorem reportUnknown_reporting (e : Emitter) (report : Bool) :
    (e.reporting report).reportUnknown = report := rfl

variable (e : Emitter)

/-- What a run with unknown statements shows beside one without, whatever was emitted before. -/
def RunsDisclose (os : List Outline) (run : Emitter → Ledger → List Flow) : Prop :=
  ∀ l m : Ledger, Discloses os (Flow.faces (run (e.reporting false) l))
    (Flow.faces (run (e.reporting true) m))

theorem discloses_leaf (origin : Node) (leaf : Leaf) :
    e.RunsDisclose [.leaf origin leaf] fun e l => ((e.outline (.leaf origin leaf)).run l).1 := by
  intro l m
  rw [faces_leaf, faces_leaf]
  split
  · next hunknown => exact .idle (by simp [Outline.isWork, hunknown]) (by simp [Outline.inside])
  · exact Discloses.wrap (o := .leaf origin leaf) .nil rfl _

theorem discloses_enclose {body : List Outline}
    (h : e.RunsDisclose body fun e l => ((e.outlines body).run l).1) (origin : Node)
    (c : Combinator) (callee : String) (name : Option String) :
    e.RunsDisclose [.enclose origin c callee name body]
      fun e l => ((e.outline (.enclose origin c callee name body)).run l).1 := by
  intro l m
  have hbody : Discloses (Outline.enclose origin c callee name body).inside _ _ := h l m
  rw [faces_enclose, faces_enclose, reportUnknown_reporting, reportUnknown_reporting,
    Outline.adopts_true]
  cases hoff : (Outline.enclose origin c callee name body).adopts false with
  | false => exact hbody.wrap (by simp [Outline.isDoubled, hoff]) _
  | true =>
    cases hunknown : (Outline.enclose origin c callee name body).inside.any Outline.isUnknown with
    | false => exact hbody.adopt (by simp [Outline.isDoubled, hunknown]) name
    | true =>
      exact hbody.double (by simp [Outline.isDoubled, hoff, hunknown]) (c.isCombinator_node ..)
        (c.typeName_node ..) name

/-- A body in one place, and then the rest. -/
theorem discloses_body_append {os ps : List Outline} {rest : Emitter → Ledger → List Flow}
    (h : e.RunsDisclose os fun e l => ((e.outlines os).run l).1) (h' : e.RunsDisclose ps rest) :
    e.RunsDisclose (os ++ ps)
      fun e l => ((e.body os).run l).1 ++ rest e ((e.body os).run l).2 := by
  intro l m
  rw [Flow.faces_append, Flow.faces_append, faces_body, faces_body]
  exact (h l m).append (h' _ _)

/-- One rule for each sort of outline, as in a single run. -/
theorem discloses_outlines (os : List Outline) :
    e.RunsDisclose os fun e l => ((e.outlines os).run l).1 := by
  induction os using Outline.inductionAll
    (fun o => e.RunsDisclose [o] fun e l => ((e.outline o).run l).1)
    (fun branches => e.RunsDisclose branches.flatten fun e l => ((e.branches branches).run l).1)
    (fun cases => e.RunsDisclose (cases.flatMap Case.body)
      fun e l => ((e.cases cases).run l).1.flatMap Case.body) with
  | leaf n leaf => exact e.discloses_leaf n leaf
  | gather n c callee name branches ih =>
    intro l m
    rw [faces_gather, faces_gather]
    exact Discloses.wrap (o := .gather n c callee name branches) (ih l m) rfl _
  | enclose n c callee name body ih => exact e.discloses_enclose ih n c callee name
  | ifThen n condition os ih =>
    intro l m
    rw [faces_ifElse_none, faces_ifElse_none]
    refine Discloses.wrap (o := .ifElse n condition os none) ?_ rfl _
    simpa [Outline.inside] using ih _ _
  | ifElse n condition os ps ih ih' =>
    intro l m
    rw [faces_ifElse_some, faces_ifElse_some]
    exact Discloses.wrap (o := .ifElse n condition os (some ps)) ((ih _ _).append (ih' _ _)) rfl _
  | ternary n condition os ps ih ih' =>
    intro l m
    rw [faces_ternary, faces_ternary]
    split
    · exact Discloses.wrap (o := .ternary n condition os ps) ((ih _ _).append (ih' _ _)) rfl _
    · next hw => exact .idle rfl hw
  | guarded n condition body ih =>
    intro l m
    rw [faces_guarded, faces_guarded]
    exact Discloses.wrap (o := .guarded n condition body) (ih _ _) rfl _
  | switch n expression cases ih =>
    intro l m
    rw [faces_switch, faces_switch]
    split
    · exact Discloses.wrap (o := .switch n expression cases) (ih l m) rfl _
    · next hw => exact .idle rfl hw
  | loop n repetition body ih =>
    intro l m
    rw [faces_loop, faces_loop]
    split
    · exact Discloses.wrap (o := .loop n repetition body) (ih l m) rfl _
    · next hw => exact .idle rfl hw
  | nil | noBranch | noCase => exact fun _ _ => .nil
  | cons o os ih ih' =>
    intro l m
    have hall := (ih l m).append (ih' (((e.reporting false).outline o).run l).2
      (((e.reporting true).outline o).run m).2)
    rw [← Flow.faces_append, ← Flow.faces_append] at hall
    exact hall
  | branch os branches ih ih' => exact e.discloses_body_append ih ih'
  | case value isDefault os cases ih ih' => exact e.discloses_body_append ih ih'

end Emitter

end FlowShape
