import FlowShape.Proofs.Table
import FlowShape.Proofs.Tree.Builder
import FlowShape.Proofs.Workflow.Production

/-!
# Resolving references

Where references are asked for, a workflow keeps the workflows that it calls: each under its name,
as it is before any reference is resolved. So it does not matter which workflows come first in a
file or whether they call each other in turn, and of two workflows with one name the first is kept.
-/

namespace FlowShape

namespace Workflow

/-- A workflow calls one of a name that the file defines. -/
def CallsDefined (w : Workflow) (name : String) : Prop :=
  ∃ tag, .workflowRef tag ⟨name, true⟩ ∈ w.walk

theorem resolvedRef?_eq_some_iff {f : Flow} {name : String} :
    resolvedRef? f = some name ↔ ∃ tag, f = .workflowRef tag ⟨name, true⟩ := by
  unfold resolvedRef?
  grind

theorem mem_referenced_iff {w : Workflow} {name : String} :
    name ∈ w.referenced ↔ w.CallsDefined name := by
  simp only [referenced, List.mem_eraseDups, List.mem_filterMap, resolvedRef?_eq_some_iff,
    CallsDefined]
  grind

/-! ## Looking up one name after the other -/

variable (targets : List Workflow)

/-- Adds the first workflow of a name to what is kept. -/
def keepFirst (kept : List (String × Workflow)) (name : String) : List (String × Workflow) :=
  (targets.find? (·.name == name)).elim kept fun target => Table.insert name target.bare kept

theorem referencesAmong_eq_foldl (w : Workflow) :
    w.referencesAmong targets =
      (w.referenced.filter (· != w.name)).foldl (keepFirst targets) [] := by
  unfold referencesAmong
  congr 1
  funext kept name
  unfold keepFirst
  cases targets.find? (·.name == name) <;> rfl

theorem sorted_keepFirst {kept : List (String × Workflow)} (h : Table.Sorted kept)
    (name : String) : Table.Sorted (keepFirst targets kept name) := by
  unfold keepFirst
  cases targets.find? (·.name == name) with
  | none => exact h
  | some target => exact h.insert

theorem sorted_referencesAmong (w : Workflow) : Table.Sorted (w.referencesAmong targets) := by
  rw [referencesAmong_eq_foldl]
  exact List.foldlRecOn _ _ .nil fun kept h name _ => sorted_keepFirst targets h name

theorem lookup_keepFirst (kept : List (String × Workflow)) (first name : String) :
    (keepFirst targets kept first).lookup name =
      if name = first then
        ((targets.find? (·.name == first)).map bare).or (kept.lookup name)
      else kept.lookup name := by
  unfold keepFirst
  cases targets.find? (·.name == first) <;> grind

/-- What stands under a name in the end is what is found for it alone. -/
theorem lookup_foldl_keepFirst (names : List String) (kept : List (String × Workflow))
    (name : String) :
    (names.foldl (keepFirst targets) kept).lookup name =
      if name ∈ names then
        ((targets.find? (·.name == name)).map bare).or (kept.lookup name)
      else kept.lookup name := by
  induction names generalizing kept with
  | nil => simp
  | cons first rest ih => grind [lookup_keepFirst]

variable {targets}

/-- A workflow keeps the first workflow of each name that it calls, but for its own name. -/
theorem mem_referencesAmong_iff {w target : Workflow} {name : String} :
    (name, target) ∈ w.referencesAmong targets ↔
      w.CallsDefined name ∧ name ≠ w.name ∧
        (targets.find? (·.name == name)).map bare = some target := by
  rw [(sorted_referencesAmong targets w).mem_iff_lookup, referencesAmong_eq_foldl,
    lookup_foldl_keepFirst]
  grind [mem_referenced_iff]

end Workflow

namespace Assembly

/-- The same assembly with or without references asked for. -/
def resolving (a : Assembly) (resolve : Bool) : Assembly :=
  { a with options := { a.options with resolveReferences := resolve } }

/-- Whether references are asked for does not matter before there are workflows. -/
theorem assemble_resolving (a : Assembly) (resolve : Bool) (entries : List EntryPoint)
    (used : Nat) : (a.resolving resolve).assemble entries used = a.assemble entries used := by
  induction entries generalizing used with
  | nil => rfl
  | cons entry entries ih =>
    have hworkflow (callback : Node) : (a.resolving resolve).workflow entry callback used =
        a.workflow entry callback used := rfl
    cases hb : bodyOf? entry with
    | none =>
      simp only [assemble, hb, ih]
      rfl
    | some callback => simp only [assemble, hb, ih, hworkflow]

end Assembly

namespace Analysis

variable (options : Options) (now : Timestamp) (src : Source) (tree : Node) (used : Nat)

/-- Asking for references changes nothing but what workflows keep of others. Each workflow keeps,
under the name of each other workflow of the file that it calls, the first workflow of that name as
it is without references. -/
theorem references_are_kept_by_name (h : tree.label.flawed = false) :
    ∃ plain resolved after,
      run { options with resolveReferences := false } now src tree used = .ok (plain, after) ∧
      run { options with resolveReferences := true } now src tree used = .ok (resolved, after) ∧
      resolved.filePath = plain.filePath ∧ resolved.warnings = plain.warnings ∧
      (∀ w ∈ plain.workflows, w.references = []) ∧
      resolved.workflows.map Workflow.bare = plain.workflows ∧
      ∀ w ∈ resolved.workflows, Table.Sorted w.references ∧
        ∀ name target, (name, target) ∈ w.references ↔
          w.CallsDefined name ∧ name ≠ w.name ∧
            plain.workflows.find? (·.name == name) = some target := by
  let assembly := Assembly.ofFile options now src tree
  obtain ⟨ws, warnings, after, hp⟩ :
      ∃ ws warnings after, assembly.assemble (src.entryPoints tree options) used =
        (ws, warnings, after) := ⟨_, _, _, rfl⟩
  have hbare := Assembly.bare_of_assemble_eq hp
  refine ⟨⟨src.path, ws, warnings⟩, ⟨src.path, Workflow.resolve ws, warnings⟩, after,
    run_of_not_flawed h ((assembly.assemble_resolving false _ _).trans hp),
    run_of_not_flawed h ((assembly.assemble_resolving true _ _).trans hp), rfl, rfl, ?_, ?_, ?_⟩
  · intro w hw
    rw [← hbare w hw]
    rfl
  · exact (Workflow.map_bare_resolve ws).trans (Assembly.map_bare_of_assemble_eq hp)
  · intro w hw
    obtain ⟨v, -, rfl⟩ := List.mem_map.1 hw
    refine ⟨Workflow.sorted_referencesAmong ws v, fun name target => ?_⟩
    have hfind : (ws.find? (·.name == name)).map Workflow.bare = ws.find? (·.name == name) := by
      cases hu : ws.find? (·.name == name) with
      | none => rfl
      | some u => exact congrArg some (hbare u (List.mem_of_find?_eq_some hu))
    have hkept : (name, target) ∈ v.referencesAmong ws ↔ _ := Workflow.mem_referencesAmong_iff
    rw [hfind] at hkept
    exact hkept

end Analysis

namespace Sample

def mutualSource : Source :=
  .ofString "sample.ts" ("\n".intercalate
    ["const a = createWorkflow(\x7b\x7d, (step) => b((step) => 1));",
     "const b = createWorkflow(\x7b\x7d, (step) => a((step) => 1));",
     "const a = createWorkflow(\x7b\x7d, (step) => step(q));",
     ""])

/-- A call of a function with a name of one letter. -/
def briefCall (start : Nat) (argument : Node) : Node :=
  part .callExpression start (argument.stop + 1) [
    role .function .identifier start (start + 1) [],
    role .arguments .arguments (start + 1) (argument.stop + 1) [
      token "(" (start + 1), argument, token ")" argument.stop]]

/-- The definition of a workflow with a name of one letter. -/
def definition (start : Nat) (callback : Node) : Node :=
  part .lexicalDeclaration start (callback.stop + 2) [
    .mk { kind := .other "const", start, stop := start + 5, named := false,
          field := some .kind } [],
    part .variableDeclarator (start + 6) (callback.stop + 1) [
      role .name .identifier (start + 6) (start + 7) [],
      token "=" (start + 8),
      role .value .callExpression (start + 10) (callback.stop + 1) [
        role .function .identifier (start + 10) (start + 24) [],
        role .arguments .arguments (start + 24) (callback.stop + 1) [
          token "(" (start + 24),
          part .object (start + 25) (start + 27) [
            token "\x7b" (start + 25), token "\x7d" (start + 26)],
          token "," (start + 27),
          callback,
          token ")" callback.stop]]],
    token ";" (callback.stop + 1)]

def mutualTree : Node :=
  part .program 0 161 [
    definition 0 (stepFunction 29 (briefCall 39 (stepFunction 41 (part .number 51 52 [])))),
    definition 56 (stepFunction 85 (briefCall 95 (stepFunction 97 (part .number 107 108 [])))),
    definition 112 (stepFunction 141 (stepCall 151))]

end Sample

namespace Analysis

/-- Two workflows that call each other, and a second one with the name of the first. -/
theorem references_are_kept_by_name_mutual :
    Sample.mutualTree.label.flawed = false ∧
      ∃ plain resolved after v w,
        run {} ⟨0, 0, 0⟩ Sample.mutualSource Sample.mutualTree 0 = .ok (plain, after) ∧
        run { resolveReferences := true } ⟨0, 0, 0⟩ Sample.mutualSource Sample.mutualTree 0 =
          .ok (resolved, after) ∧
        resolved.workflows.map Workflow.bare = plain.workflows ∧
        resolved.workflows.map (fun w => (w.name, w.references.map (·.1))) =
          [("a", ["b"]), ("b", ["a"]), ("a", [])] ∧
        resolved.workflows.head? = some w ∧ w.references = [("b", v)] ∧ v.references = [] ∧
        w.CallsDefined "b" ∧ plain.workflows.find? (·.name == "b") = some v := by
  have hrun : ((run { resolveReferences := true } ⟨0, 0, 0⟩ Sample.mutualSource
      Sample.mutualTree 0).toOption.map fun p => p.1.workflows.map fun w =>
        (w.name, w.references.map (·.1))) = some [("a", ["b"]), ("b", ["a"]), ("a", [])] := by
    decide +kernel
  obtain ⟨plain, resolved, after, hplain, hresolved, -, -, hempty, hbare, hkept⟩ :=
    references_are_kept_by_name {} ⟨0, 0, 0⟩ Sample.mutualSource Sample.mutualTree 0 rfl
  rw [hresolved] at hrun
  replace hrun : resolved.workflows.map (fun w => (w.name, w.references.map (·.1))) =
      [("a", ["b"]), ("b", ["a"]), ("a", [])] := Option.some.inj hrun
  obtain ⟨w, ws, hw, hkeys, -⟩ := List.map_eq_cons_iff.1 hrun
  obtain ⟨⟨name, v⟩, rest, hreferences, rfl, hrest⟩ := List.map_eq_cons_iff.1 (Prod.mk.inj hkeys).2
  obtain rfl := List.map_eq_nil_iff.1 hrest
  obtain ⟨hcalls, -, hfind⟩ := ((hkept w (by simp [hw])).2 "b" v).1 (by simp [hreferences])
  exact ⟨rfl, plain, resolved, after, v, w, hplain, hresolved, hbare, hrun, by simp [hw],
    hreferences, hempty v (List.mem_of_find?_eq_some hfind), hcalls, hfind⟩

end Analysis

end FlowShape
