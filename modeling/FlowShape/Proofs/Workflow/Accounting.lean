import Mathlib.Data.List.Forall2
import FlowShape.Proofs.Tree.Builder
import FlowShape.Proofs.Workflow.Production

/-!
# What becomes of the entry points

Each entry point of a file gives either a workflow or a warning. Those that give a warning are
without effect on the others: they use up no numbers and nothing is counted for them.
-/

namespace FlowShape

namespace Assembly

/-- A workflow is built from an entry point, after a number of used identifiers. -/
def Builds (a : Assembly) (entry : EntryPoint) (w : Workflow) : Prop :=
  ∃ callback before, bodyOf? entry = some callback ∧ w = (a.workflow entry callback before).1

theorem Builds.kind_and_name {a : Assembly} {entry : EntryPoint} {w : Workflow}
    (h : a.Builds entry w) : w.root.source = entry.kind ∧ w.name = a.workflowName entry := by
  obtain ⟨callback, before, -, rfl⟩ := h
  exact ⟨rfl, rfl⟩

/-- The entry points with a body give the workflows, in their order. -/
theorem forall₂_assemble (a : Assembly) (entries : List EntryPoint) (used : Nat) :
    List.Forall₂ a.Builds (entries.filter EntryPoint.hasBody) (a.assemble entries used).1 := by
  induction entries generalizing used with
  | nil => exact .nil
  | cons entry entries ih =>
    cases hb : bodyOf? entry with
    | none =>
      rw [assemble_cons_of_none hb, List.filter_cons_of_neg (by simp [EntryPoint.hasBody, hb])]
      exact ih used
    | some callback =>
      rw [assemble_cons_of_some hb, List.filter_cons_of_pos (by simp [EntryPoint.hasBody, hb])]
      exact .cons ⟨callback, used, hb, rfl⟩ (ih _)

/-- Without the entry points that have no body, only the warnings are missing. -/
theorem assemble_filter_hasBody (a : Assembly) (entries : List EntryPoint) (used : Nat) :
    a.assemble (entries.filter EntryPoint.hasBody) used =
      ((a.assemble entries used).1, [], (a.assemble entries used).2.2) := by
  induction entries generalizing used with
  | nil => rfl
  | cons entry entries ih =>
    cases hb : bodyOf? entry with
    | none => simp [assemble, EntryPoint.hasBody, hb, ih]
    | some callback => simp [assemble, EntryPoint.hasBody, hb, ih]

/-- Which entry points without a body there are does not matter to the workflows and their
numbers. -/
theorem assemble_congr (a : Assembly) {entries entries' : List EntryPoint}
    (h : entries'.filter EntryPoint.hasBody = entries.filter EntryPoint.hasBody) (used : Nat) :
    (a.assemble entries' used).1 = (a.assemble entries used).1 ∧
      (a.assemble entries' used).2.2 = (a.assemble entries used).2.2 := by
  have hsame := a.assemble_filter_hasBody entries' used
  rw [h, assemble_filter_hasBody] at hsame
  grind

end Assembly

/-- The entry points with a function literal for their body give the workflows of an analysis, one
for one and in order, and the others give its warnings. Whichever of the others there are, the
workflows are the same, with the same numbers and counts. -/
theorem Analysis.entry_points_are_accounted_for (options : Options) (now : Timestamp)
    (src : Source) (tree : Node) (used : Nat) (h : tree.label.flawed = false) :
    ∃ a after, Analysis.run options now src tree used = .ok (a, after) ∧
      List.Forall₂ (fun entry w => w.root.source = entry.kind ∧
          w.name = (Assembly.ofFile options now src tree).workflowName entry ∧
          (Assembly.ofFile options now src tree).Builds entry w.bare)
        ((src.entryPoints tree options).filter EntryPoint.hasBody) a.workflows ∧
      List.Forall₂ (fun entry x => x.code.name = "CALLBACK_NOT_FOUND" ∧
          x.message = "`" ++ (Assembly.ofFile options now src tree).workflowName entry ++ "` (" ++
            entry.kind.name ++ ") has no function-literal callback" ∧
          x.location =
            if options.includeLocations then some (src.location entry.call.node) else none)
        ((src.entryPoints tree options).filter (!·.hasBody)) a.warnings ∧
      ∀ kept : List EntryPoint,
        kept.filter EntryPoint.hasBody =
          (src.entryPoints tree options).filter EntryPoint.hasBody →
        ∃ ws warnings, (Assembly.ofFile options now src tree).assemble kept used =
            (ws, warnings, after) ∧
          a.workflows = if options.resolveReferences then Workflow.resolve ws else ws := by
  let assembly := Assembly.ofFile options now src tree
  let entries := src.entryPoints tree options
  obtain ⟨ws, warnings, after, hp⟩ : ∃ ws warnings after,
      assembly.assemble entries used = (ws, warnings, after) := ⟨_, _, _, rfl⟩
  refine ⟨_, _, run_of_not_flawed h hp, ?_, ?_, ?_⟩
  · have hbuilds := assembly.forall₂_assemble entries used
    have hbare := Analysis.map_bare_workflows options hp
    rw [hp, ← hbare, List.forall₂_map_right_iff] at hbuilds
    exact hbuilds.imp fun entry w hw => ⟨hw.kind_and_name.1, hw.kind_and_name.2, hw⟩
  · have hwarnings : warnings = (entries.filter (!·.hasBody)).map assembly.callbackNotFound := by
      rw [← assembly.warnings_assemble_eq entries used, hp]
    rw [hwarnings, List.forall₂_map_right_iff]
    exact List.forall₂_same.2 fun entry _ => ⟨rfl, rfl, rfl⟩
  · intro kept hkept
    have hsame := assembly.assemble_congr hkept used
    rw [hp] at hsame
    exact ⟨ws, (assembly.assemble kept used).2.1, by grind, rfl⟩

namespace Sample

def severalSource : Source :=
  .ofString "sample.ts" ("\n".intercalate
    ["const pay = createWorkflow(\x7b\x7d, (step) => step(q));",
     "run(f);",
     "run((step) => \x7b",
     "  pay((step) => 1);",
     "  ship((step) => 1);",
     "\x7d);",
     ""])

def severalTree : Node :=
  part .program 0 120 [
    part .lexicalDeclaration 0 50 [
      .mk { kind := .other "const", start := 0, stop := 5, named := false, field := some .kind } [],
      part .variableDeclarator 6 49 [
        role .name .identifier 6 9 [],
        token "=" 10,
        role .value .callExpression 12 49 [
          role .function .identifier 12 26 [],
          role .arguments .arguments 26 49 [
            token "(" 26,
            part .object 27 29 [token "\x7b" 27, token "\x7d" 28],
            token "," 29,
            stepFunction 31 (stepCall 41),
            token ")" 48]]],
      token ";" 49],
    callStatement 51 (part .identifier 55 56 []),
    callStatement 59 (stepFunction 63 (part .statementBlock 73 117 [
      token "\x7b" 73,
      callStatement 77 (stepFunction 81 (part .number 91 92 [])),
      callStatement 97 (stepFunction 102 (part .number 112 113 [])),
      token "\x7d" 116]))]

end Sample

/-- The second of the three entry points has no function literal, and can be left out. -/
theorem Analysis.entry_points_are_accounted_for_several :
    Sample.severalTree.label.flawed = false ∧
      ∃ a after entries, Analysis.run { assumeImported := true } ⟨0, 0, 0⟩ Sample.severalSource
          Sample.severalTree 0 = .ok (a, after) ∧
        Sample.severalSource.entryPoints Sample.severalTree { assumeImported := true } = entries ∧
        entries.map (fun entry => (entry.kind, entry.hasBody)) =
          [(.createWorkflow, true), (.run, false), (.run, true)] ∧
        List.Forall₂ (fun entry w => w.root.source = entry.kind)
          (entries.filter EntryPoint.hasBody) a.workflows ∧
        List.Forall₂ (fun entry x => x.location = some (Sample.severalSource.location
          entry.call.node)) (entries.filter (!·.hasBody)) a.warnings ∧
        ∃ warnings, (Assembly.ofFile { assumeImported := true } ⟨0, 0, 0⟩ Sample.severalSource
          Sample.severalTree).assemble (entries.filter EntryPoint.hasBody) 0 =
            (a.workflows, warnings, after) := by
  obtain ⟨a, after, hrun, hworkflows, hwarnings, hkept⟩ :=
    Analysis.entry_points_are_accounted_for { assumeImported := true } ⟨0, 0, 0⟩
      Sample.severalSource Sample.severalTree 0 rfl
  obtain ⟨ws, warnings, hassemble, rfl⟩ := hkept
    ((Sample.severalSource.entryPoints Sample.severalTree { assumeImported := true }).filter
      EntryPoint.hasBody) (by simp)
  exact ⟨rfl, a, after, _, hrun, rfl, by decide +kernel, hworkflows.imp fun entry w h => h.1,
    hwarnings.imp fun entry x h => h.2.2, warnings, hassemble⟩

end FlowShape
