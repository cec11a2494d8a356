import FlowShape.Proofs.Emission.Disclosure
import FlowShape.Proofs.Emission.Retention
import FlowShape.Proofs.Related
import FlowShape.Proofs.Tree.Builder

/-!
# Analyses with and without unknown statements

Reporting unknown statements keeps the workflows of a file in their order, with their warnings, with
the workflows kept under them, and with all that was understood in their bodies. Only where a call
is doubled is there one more combinator. So reporting adds nothing but unknown statements and
sequences around them just if no call is doubled.
-/

namespace FlowShape

/-! ## Counting faces -/

namespace Flow

theorem countP_faces {p : Flow → Bool} (hface : ∀ f, p f.face = p f)
    (hp : ∀ f, p f → f.isUnderstood) (ns : List Flow) :
    (faces ns).countP p = (ns.flatMap walk).countP p := by
  rw [faces, List.countP_map, List.countP_filter]
  refine List.countP_congr fun f _ => ?_
  have hunderstood := hp f
  simp only [Function.comp_apply, hface, Bool.and_eq_true]
  exact ⟨And.left, fun h => ⟨h, hunderstood h⟩⟩

theorem countP_plain {p : Flow → Bool} (hp : ∀ f, p f → f.isCombinator = false)
    (fs : List Flow) : (plain fs).countP p = fs.countP p := by
  rw [plain, List.countP_filter]
  refine List.countP_congr fun f _ => ?_
  have hcombinator := hp f
  simp only [Bool.and_eq_true, Bool.not_eq_true']
  exact ⟨And.left, fun h => ⟨h, hcombinator h⟩⟩

/-- Faces tell the number of nodes of each type that was understood. -/
theorem countOf_faces {type : String} (hsequence : type ≠ "sequence") (hunknown : type ≠ "unknown")
    (ns : List Flow) : countOf type (faces ns) = countOf type (ns.flatMap walk) := by
  refine countP_faces (fun f => by rw [typeName_face]) (fun f hf => ?_) ns
  obtain rfl := beq_iff_eq.1 hf
  cases f with
  | sequence => exact absurd rfl hsequence
  | unknown => exact absurd rfl hunknown
  | _ => rfl

end Flow

namespace Outline

/-- Only combinators are doubled. -/
theorem countP_doubles_eq_zero {type : String} (hparallel : type ≠ "parallel")
    (hrace : type ≠ "race") (os : List Outline) :
    (doubles os).countP (·.typeName == type) = 0 := by
  rw [List.countP_eq_zero]
  intro o ho htype
  have hdoubled := (List.mem_filter.1 ho).2
  obtain rfl := beq_iff_eq.1 htype
  cases o with
  | enclose _ c => cases c <;> contradiction
  | _ => cases hdoubled

end Outline

attribute [ext] Stats

/-- Statistics with each doubled call counted once more, and with other unknown statements. -/
def Stats.disclosed (s : Stats) (doubles : List Outline) (unknownCount : Nat) : Stats :=
  { s with
    parallelCount := s.parallelCount + doubles.countP (·.typeName == "parallel")
    raceCount := s.raceCount + doubles.countP (·.typeName == "race")
    unknownCount }

namespace Discloses

variable {os : List Outline} {ns ms : List Flow}

theorem countP_isStep (h : Discloses os (Flow.faces ns) (Flow.faces ms)) :
    (ms.flatMap Flow.walk).countP Flow.isStep = (ns.flatMap Flow.walk).countP Flow.isStep := by
  have hface (f : Flow) : f.face.isStep = f.isStep := by cases f <;> rfl
  have hunderstood (f : Flow) (hf : f.isStep) : f.isUnderstood := by
    cases f <;> first | rfl | cases hf
  have hcombinator (f : Flow) (hf : f.isStep) : f.isCombinator = false := by
    cases f <;> first | rfl | cases hf
  rw [← Flow.countP_faces hface hunderstood, ← Flow.countP_faces hface hunderstood,
    ← Flow.countP_plain hcombinator, ← Flow.countP_plain hcombinator (Flow.faces ns), h.plain]

theorem countOf_eq {type : String} (hsequence : type ≠ "sequence") (hunknown : type ≠ "unknown")
    (h : Discloses os (Flow.faces ns) (Flow.faces ms)) :
    Flow.countOf type (ms.flatMap Flow.walk) =
      Flow.countOf type (ns.flatMap Flow.walk) +
        (Outline.doubles os).countP (·.typeName == type) := by
  rw [← Flow.countOf_faces hsequence hunknown, ← Flow.countOf_faces hsequence hunknown, h.counts]

/-- The counts of types other than combinators stay as they are. -/
theorem countOf_eq_of_ne {type : String} (hsequence : type ≠ "sequence")
    (hunknown : type ≠ "unknown") (hparallel : type ≠ "parallel") (hrace : type ≠ "race")
    (h : Discloses os (Flow.faces ns) (Flow.faces ms)) :
    Flow.countOf type (ms.flatMap Flow.walk) = Flow.countOf type (ns.flatMap Flow.walk) := by
  rw [h.countOf_eq hsequence hunknown, Outline.countP_doubles_eq_zero hparallel hrace,
    Nat.add_zero]

theorem stats_eq {s t : Stats} (h : Discloses os (Flow.faces ns) (Flow.faces ms))
    (hs : Stats.Tallies {} (ns.flatMap Flow.walk) s)
    (ht : Stats.Tallies {} (ms.flatMap Flow.walk) t)
    (hconditional : t.conditionalCount = s.conditionalCount) :
    t = s.disclosed (Outline.doubles os) t.unknownCount := by
  have hsteps := h.countP_isStep
  have hswitch := h.countOf_eq_of_ne (by decide : "switch" ≠ _) (by decide) (by decide) (by decide)
  have hloop := h.countOf_eq_of_ne (by decide : "loop" ≠ _) (by decide) (by decide) (by decide)
  have hstream := h.countOf_eq_of_ne (by decide : "stream" ≠ _) (by decide) (by decide) (by decide)
  have href := h.countOf_eq_of_ne (by decide : "workflow-ref" ≠ _) (by decide) (by decide)
    (by decide)
  have hparallel := h.countOf_eq (by decide : "parallel" ≠ _) (by decide)
  have hrace := h.countOf_eq (by decide : "race" ≠ _) (by decide)
  obtain ⟨h₁, h₂, h₃, h₄, h₅, h₆, h₇, -, -⟩ := hs
  obtain ⟨k₁, k₂, k₃, k₄, k₅, k₆, k₇, -, -⟩ := ht
  apply Stats.ext <;> simp only [Stats.disclosed] <;> omega

end Discloses

/-! ## Workflows -/

namespace Workflow

/-- The faces of all that was understood in a workflow. -/
def faces (w : Workflow) : List Flow := Flow.faces w.root.children

theorem resolvedRef?_face (f : Flow) : resolvedRef? f.face = resolvedRef? f := by
  cases f with
  | workflowRef tag ref =>
    obtain ⟨name, resolved⟩ := ref
    cases resolved <;> rfl
  | _ => rfl

/-- The faces tell which workflows are called. -/
theorem filterMap_resolvedRef?_walk (w : Workflow) :
    w.walk.filterMap resolvedRef? = (Flow.plain w.faces).filterMap resolvedRef? := by
  rw [faces, Flow.faces, Flow.plain, List.filterMap_filter, List.filterMap_map,
    List.filterMap_filter]
  refine List.filterMap_congr fun f _ => ?_
  rw [Function.comp_apply, resolvedRef?_face]
  cases f <;> rfl

end Workflow

namespace Assembly

/-- The same assembly that reports unknown statements or leaves them out. -/
def reporting (a : Assembly) (report : Bool) : Assembly :=
  { a with options := { a.options with reportUnknownStatements := report } }

/-- The workflows of one entry point, `w` without and `v` with unknown statements. -/
structure Twins (a : Assembly) (entry : EntryPoint) (callback : Node) (w v : Workflow) :
    Prop where
  left : ∃ used, w.bare = ((a.reporting false).workflow entry callback used).1
  right : ∃ used, v.bare = ((a.reporting true).workflow entry callback used).1
  root : v.root = { w.root with id := v.root.id, children := v.root.children }
  metadata : v.metadata = { w.metadata with stats := v.metadata.stats }
  stats : v.metadata.stats = w.metadata.stats.disclosed
    (Outline.doubles (a.outline entry callback)) v.metadata.stats.unknownCount
  plain : Flow.plain v.faces = Flow.plain w.faces
  faces_eq_iff : v.faces = w.faces ↔ Outline.doubles (a.outline entry callback) = []

theorem discloses_workflow (a : Assembly) (entry : EntryPoint) (callback : Node)
    (used used' : Nat) :
    Discloses (a.outline entry callback) ((a.reporting false).workflow entry callback used).1.faces
      ((a.reporting true).workflow entry callback used').1.faces := by
  have hbody := a.emitter.discloses_outlines (a.outline entry callback) { used } { used := used' }
  rw [← Emitter.faces_body, ← Emitter.faces_body] at hbody
  exact hbody

theorem twins_workflow (a : Assembly) (entry : EntryPoint) (callback : Node) (used used' : Nat) :
    a.Twins entry callback ((a.reporting false).workflow entry callback used).1
      ((a.reporting true).workflow entry callback used').1 where
  left := ⟨used, rfl⟩
  right := ⟨used', rfl⟩
  root := rfl
  metadata := by
    have hoff := ((a.reporting false).emitter.emits_body (a.outline entry callback)
      { used }).warnings
    have hon := ((a.reporting true).emitter.emits_body (a.outline entry callback)
      { used := used' }).warnings
    exact congrArg (fun warnings =>
      { ((a.reporting true).workflow entry callback used').1.metadata with warnings })
      (hon.trans hoff.symm)
  stats := by
    have hoff := ((a.reporting false).emitter.emits_body (a.outline entry callback)
      { used }).conditionalCount_eq
    have hon := ((a.reporting true).emitter.emits_body (a.outline entry callback)
      { used := used' }).conditionalCount_eq
    exact (a.discloses_workflow entry callback used used').stats_eq
      ((a.reporting false).tallies_workflow entry callback used)
      ((a.reporting true).tallies_workflow entry callback used') (hon.trans hoff.symm)
  plain := (a.discloses_workflow entry callback used used').plain
  faces_eq_iff := (a.discloses_workflow entry callback used used').eq_iff

/-- Workflows of the same entry point among some, without and with unknown statements. -/
def Pairs (a : Assembly) (entries : List EntryPoint) (w v : Workflow) : Prop :=
  ∃ entry ∈ entries, ∃ callback, bodyOf? entry = some callback ∧ a.Twins entry callback w v

/-- Workflows that are paired, with paired workflows kept under the same names. -/
def Paired (a : Assembly) (entries : List EntryPoint) (w v : Workflow) : Prop :=
  a.Pairs entries w v ∧
    List.Forall₂ (fun p q => q.1 = p.1 ∧ a.Pairs entries p.2 q.2) w.references v.references

theorem paired_assemble (a : Assembly) {all entries : List EntryPoint} (h : entries ⊆ all)
    (used used' : Nat) :
    List.Forall₂ (a.Paired all) ((a.reporting false).assemble entries used).1
      ((a.reporting true).assemble entries used').1 := by
  induction entries generalizing used used' with
  | nil => exact .nil
  | cons entry entries ih =>
    obtain ⟨hentry, hentries⟩ := List.cons_subset.1 h
    cases hb : bodyOf? entry with
    | none =>
      rw [assemble_cons_of_none hb, assemble_cons_of_none hb]
      exact ih hentries used used'
    | some callback =>
      rw [assemble_cons_of_some hb, assemble_cons_of_some hb]
      refine .cons ⟨⟨entry, hentry, callback, hb, ?_⟩, .nil⟩ (ih hentries _ _)
      exact a.twins_workflow entry callback used used'

/-- The warnings of a file do not depend on the workflows in it. -/
theorem warnings_assemble (a : Assembly) (entries : List EntryPoint) (used used' : Nat) :
    ((a.reporting true).assemble entries used').2.1 =
      ((a.reporting false).assemble entries used).2.1 := by
  rw [warnings_assemble_eq, warnings_assemble_eq]
  rfl

namespace Twins

variable {a : Assembly} {entry : EntryPoint} {callback : Node} {w v : Workflow}

theorem name_eq (h : a.Twins entry callback w v) : v.name = w.name := by
  rw [Workflow.name, h.root]
  rfl

/-- Calls of other workflows are understood, so both call the same ones. -/
theorem referenced_eq (h : a.Twins entry callback w v) : v.referenced = w.referenced := by
  rw [Workflow.referenced, Workflow.filterMap_resolvedRef?_walk, h.plain,
    ← Workflow.filterMap_resolvedRef?_walk]
  rfl

/-- What is kept of others does not matter. -/
theorem keep (h : a.Twins entry callback w v) (references references' : List (String × Workflow)) :
    a.Twins entry callback { w with references } { v with references := references' } :=
  ⟨h.left, h.right, h.root, h.metadata, h.stats, h.plain, h.faces_eq_iff⟩

end Twins

end Assembly

namespace Table

theorem forall₂_insert {α β : Type} {R : α → β → Prop} (key : String) {a : α} {b : β}
    {table : List (String × α)} {table' : List (String × β)} (hab : R a b)
    (h : List.Forall₂ (fun p q => q.1 = p.1 ∧ R p.2 q.2) table table') :
    List.Forall₂ (fun p q => q.1 = p.1 ∧ R p.2 q.2) (insert key a table)
      (insert key b table') := by
  induction h with
  | nil => exact .cons ⟨rfl, hab⟩ .nil
  | @cons p q table table' hpq hrest ih =>
    obtain ⟨k, _⟩ := p
    obtain ⟨k', _⟩ := q
    obtain ⟨rfl, hR⟩ := hpq
    simp only [insert]
    split
    · exact .cons ⟨rfl, hab⟩ (.cons ⟨rfl, hR⟩ hrest)
    · split
      · exact .cons ⟨rfl, hab⟩ hrest
      · exact .cons ⟨rfl, hR⟩ ih

end Table

namespace Workflow

variable {a : Assembly} {entries : List EntryPoint} {ws vs : List Workflow}

theorem forall₂_referencesAmong (hall : List.Forall₂ (a.Paired entries) ws vs) {w v : Workflow}
    (h : a.Pairs entries w v) :
    List.Forall₂ (fun p q => q.1 = p.1 ∧ a.Pairs entries p.2 q.2) (w.referencesAmong ws)
      (v.referencesAmong vs) := by
  obtain ⟨entry, -, callback, -, htwins⟩ := h
  rw [referencesAmong, referencesAmong, htwins.referenced_eq, htwins.name_eq]
  -- what is found so far is paired after each name that is looked up
  refine List.foldl_rel .nil fun name _ found found' hfound => ?_
  have hfind := hall.find? (p := (·.name == name)) (q := (·.name == name)) fun w v h => by
    obtain ⟨⟨entry, -, callback, -, htwins⟩, -⟩ := h
    rw [htwins.name_eq]
  rcases hfind.cases_eq with ⟨hw, hv⟩ | ⟨target, target', hw, hv, htarget⟩
  · rw [hw, hv]
    exact hfound
  · rw [hw, hv]
    obtain ⟨⟨entry, hentry, callback, hbody, htwins⟩, -⟩ := htarget
    exact Table.forall₂_insert name ⟨entry, hentry, callback, hbody, htwins.keep [] []⟩ hfound

theorem paired_resolve (hall : List.Forall₂ (a.Paired entries) ws vs) :
    List.Forall₂ (a.Paired entries) (resolve ws) (resolve vs) := by
  rw [resolve, resolve, List.forall₂_map_left_iff, List.forall₂_map_right_iff]
  refine hall.imp fun w v h => ⟨?_, forall₂_referencesAmong hall h.1⟩
  obtain ⟨⟨entry, hentry, callback, hbody, htwins⟩, -⟩ := h
  exact ⟨entry, hentry, callback, hbody, htwins.keep _ _⟩

end Workflow

namespace Analysis

/-- Reporting unknown statements changes no warning and nothing that was understood, but for a
combinator that is added where a call is doubled. -/
theorem reporting_doubles_calls (options : Options) (now : Timestamp) (src : Source) (tree : Node)
    (used : Nat) (h : tree.label.flawed = false) :
    ∃ a after b after',
      run { options with reportUnknownStatements := false } now src tree used = .ok (a, after) ∧
      run { options with reportUnknownStatements := true } now src tree used = .ok (b, after') ∧
      b.filePath = a.filePath ∧ b.warnings = a.warnings ∧
      List.Forall₂ ((Assembly.ofFile options now src tree).Paired (src.entryPoints tree options))
        a.workflows b.workflows := by
  let assembly := Assembly.ofFile options now src tree
  refine ⟨_, _, _, _, run_of_not_flawed h rfl, run_of_not_flawed h rfl, rfl,
    assembly.warnings_assemble (src.entryPoints tree options) used used, ?_⟩
  have hpaired := assembly.paired_assemble (List.Subset.refl (src.entryPoints tree options))
    used used
  dsimp only
  split
  · exact Workflow.paired_resolve hpaired
  · exact hpaired

end Analysis

namespace Sample

def besideSource : Source :=
  .ofString "sample.ts" ("\n".intercalate
    ["run((step) => \x7b",
     "  step.parallel(() => \x7b debugger; return allAsync([step(a)]); \x7d);",
     "\x7d);",
     ""])

def besideTree : Node :=
  part .program 0 86 [
    callStatement 0 (stepFunction 4 (part .statementBlock 14 83 [
      token "\x7b" 14,
      part .expressionStatement 18 81 [
        part .callExpression 18 80 [
          role .function .memberExpression 18 31 [
            role .object .identifier 18 22 [], token "." 22,
            role .property (.other "property_identifier") 23 31 []],
          role .arguments .arguments 31 80 [
            token "(" 31,
            part .arrowFunction 32 79 [
              role .parameters .formalParameters 32 34 [token "(" 32, token ")" 33],
              token "=>" 35,
              role .body .statementBlock 38 79 [
                token "\x7b" 38,
                part (.other "debugger_statement") 40 49 [token "debugger" 40, token ";" 48],
                part .returnStatement 50 77 [
                  token "return" 50,
                  part .callExpression 57 76 [
                    role .function .identifier 57 65 [],
                    role .arguments .arguments 65 76 [
                      token "(" 65,
                      part .array 66 75 [token "[" 66, stepCall 67, token "]" 74],
                      token ")" 75]],
                  token ";" 76],
                token "\x7d" 78]],
            token ")" 79]],
        token ";" 80],
      token "\x7d" 82]))]

end Sample

namespace Analysis

/-- What a file with the call in it is reported as, without and with unknown statements. -/
theorem run_beside :
    ((run { assumeImported := true } ⟨0, 0, 0⟩ Sample.besideSource
      Sample.besideTree 0).toOption.map fun p => p.1.workflows.map fun w =>
        (w.walk.map Flow.typeName, w.metadata.stats.parallelCount)) =
      some [(["parallel", "step"], 1)] ∧
    ((run { assumeImported := true, reportUnknownStatements := true } ⟨0, 0, 0⟩
      Sample.besideSource Sample.besideTree 0).toOption.map fun p => p.1.workflows.map fun w =>
        (w.walk.map Flow.typeName, w.metadata.stats.parallelCount)) =
      some [(["parallel", "unknown", "parallel", "step"], 2)] := by
  decide +kernel

/-- The call is a node of its own beside the combinator once the statement before it is reported. -/
theorem reporting_doubles_calls_beside :
    Sample.besideTree.label.flawed = false ∧
      ∃ a after b after',
        run { assumeImported := true } ⟨0, 0, 0⟩ Sample.besideSource Sample.besideTree 0 =
          .ok (a, after) ∧
        run { assumeImported := true, reportUnknownStatements := true } ⟨0, 0, 0⟩
          Sample.besideSource Sample.besideTree 0 = .ok (b, after') ∧
        a.workflows.map (fun w => (w.walk.map Flow.typeName, w.metadata.stats.parallelCount)) =
          [(["parallel", "step"], 1)] ∧
        b.workflows.map (fun w => (w.walk.map Flow.typeName, w.metadata.stats.parallelCount)) =
          [(["parallel", "unknown", "parallel", "step"], 2)] ∧
        b.warnings = a.warnings ∧
        List.Forall₂ ((Assembly.ofFile { assumeImported := true } ⟨0, 0, 0⟩ Sample.besideSource
          Sample.besideTree).Paired (Sample.besideSource.entryPoints Sample.besideTree
            { assumeImported := true })) a.workflows b.workflows := by
  obtain ⟨hoff, hon⟩ := run_beside
  obtain ⟨a, after, b, after', ha, hb, -, hwarnings, hpaired⟩ := reporting_doubles_calls
    { assumeImported := true } ⟨0, 0, 0⟩ Sample.besideSource Sample.besideTree 0 rfl
  rw [ha] at hoff
  rw [hb] at hon
  exact ⟨rfl, a, after, b, after', ha, hb, Option.some.inj hoff, Option.some.inj hon, hwarnings,
    hpaired⟩

/-- Here reporting does not only add unknown statements: the workflows do not agree in their other
counts, their warnings and all that was understood. -/
theorem reporting_is_not_additive :
    Sample.besideTree.label.flawed = false ∧
      ∃ a after b after',
        run { assumeImported := true } ⟨0, 0, 0⟩ Sample.besideSource Sample.besideTree 0 =
          .ok (a, after) ∧
        run { assumeImported := true, reportUnknownStatements := true } ⟨0, 0, 0⟩
          Sample.besideSource Sample.besideTree 0 = .ok (b, after') ∧
        ¬List.Forall₂ (fun w v =>
          v.metadata.stats =
            { w.metadata.stats with unknownCount := v.metadata.stats.unknownCount } ∧
          v.metadata.warnings = w.metadata.warnings ∧ v.faces = w.faces)
          a.workflows b.workflows := by
  obtain ⟨hoff, hon⟩ := run_beside
  cases ha : run { assumeImported := true } ⟨0, 0, 0⟩ Sample.besideSource Sample.besideTree 0 with
  | error e => simp [ha, Except.toOption] at hoff
  | ok p =>
    cases hb : run { assumeImported := true, reportUnknownStatements := true } ⟨0, 0, 0⟩
        Sample.besideSource Sample.besideTree 0 with
    | error e => simp [hb, Except.toOption] at hon
    | ok q =>
      rw [ha] at hoff
      rw [hb] at hon
      refine ⟨rfl, p.1, p.2, q.1, q.2, rfl, rfl, fun hadditive => ?_⟩
      have hcounts : q.1.workflows.map (·.metadata.stats.parallelCount) =
          p.1.workflows.map (·.metadata.stats.parallelCount) :=
        hadditive.map_eq fun w v h => by rw [h.1]
      have hone := congrArg (List.map Prod.snd) (Option.some.inj hoff)
      have htwo := congrArg (List.map Prod.snd) (Option.some.inj hon)
      rw [List.map_map] at hone htwo
      exact absurd (htwo.symm.trans (hcounts.trans hone)) (by decide)

end Analysis

end FlowShape
