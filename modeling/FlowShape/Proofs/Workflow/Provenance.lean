import FlowShape.Proofs.Reading.Origins
import FlowShape.Proofs.Workflow.Placement

/-!
# Where the nodes of a workflow come from

Each node of a workflow comes from the callback of its entry point, and from a function inside the
callback only if that function is run as a part of the workflow. A class in a namespace is the one
exception: its fields are taken for a part of the callback.
-/

namespace FlowShape

namespace Assembly

variable (a : Assembly) (entry : EntryPoint) {callback : Node}

theorem within_workflow (hliteral : callback.isFunctionLiteral)
    (hregular : ∀ n ∈ callback.nodes, n.Regular) (used : Nat) :
    ∀ f ∈ (a.workflow entry callback used).1.walk, f.isSequence ∨
      ∃ s, (a.reader entry callback).Within callback s ∧
        f.tag.location = a.emitter.location s.node := by
  intro f hf
  obtain hf | ⟨m, s, o, hreaches, hm, hmade, hf⟩ := a.joined_or_made entry callback used hf
  · obtain ⟨id, cs, rfl, -⟩ := hf
    exact .inl rfl
  · refine .inr ⟨s, hreaches.within hliteral hregular hm, ?_⟩
    rw [hf.location, hmade.origin_eq]

end Assembly

/-- Each node of a workflow comes from the body of the callback of its entry point. The functions in
between are function literals in the positions where they are entered, the classes in between stand
in a namespace, and none of the calls in between is a step or a reference to a workflow. -/
theorem Analysis.nodes_come_from_entered_functions (options : Options) (now : Timestamp)
    (src : Source) (tree : Node) (used : Nat) (h : tree.label.flawed = false)
    (hregular : ∀ n ∈ tree.nodes, n.Regular) (hlocations : options.includeLocations) :
    ∃ a after, Analysis.run options now src tree used = .ok (a, after) ∧
      ∀ w ∈ a.allWorkflows, ∃ entry ∈ src.entryPoints tree options, ∃ callback before,
        Assembly.bodyOf? entry = some callback ∧
        w.bare = ((Assembly.ofFile options now src tree).workflow entry callback before).1 ∧
        ∀ f ∈ w.walk, f.isSequence ∨
          ∃ s, ((Assembly.ofFile options now src tree).reader entry callback).Within callback s ∧
            f.tag.location = some (src.location s.node) := by
  refine Analysis.exists_run_forall h (fun w hw => hw) ?_
  intro entry hentry callback before hbody
  obtain ⟨hcallback, hliteral⟩ := Option.filter_eq_some_iff.1 hbody
  have hmem : callback ∈ tree.nodes := Source.mem_nodes_of_entryPoints hentry hcallback
  have hnodes : ∀ n ∈ callback.nodes, n.Regular := fun n hn =>
    hregular n ((Node.nodes_sublist_of_mem hmem).subset hn)
  refine ⟨entry, hentry, callback, before, hbody, rfl, ?_⟩
  intro f hf
  refine (Assembly.within_workflow _ entry hliteral hnodes before f hf).imp_right ?_
  rintro ⟨s, hs, hlocation⟩
  exact ⟨s, hs, hlocation.trans (if_pos hlocations)⟩

namespace Sample

def nestedSource : Source :=
  .ofString "sample.ts" ("\n".intercalate
    ["run(async (step) => \x7b",
     "  when(a, () => step(b));",
     "  namespace N \x7b class C \x7b x = step(c); \x7d \x7d",
     "\x7d);",
     ""])

def nestedTree : Node :=
  part .program 0 95 [
    part .expressionStatement 0 94 [
      part .callExpression 0 93 [
        role .function .identifier 0 3 [],
        role .arguments .arguments 3 93 [
          token "(" 3,
          part .arrowFunction 4 92 [
            token "async" 4,
            role .parameters .formalParameters 10 16 [
              token "(" 10, part .requiredParameter 11 15 [role .pattern .identifier 11 15 []],
              token ")" 15],
            token "=>" 17,
            role .body .statementBlock 20 92 [
              token "\x7b" 20,
              part .expressionStatement 24 47 [
                part .callExpression 24 46 [
                  role .function .identifier 24 28 [],
                  role .arguments .arguments 28 46 [
                    token "(" 28, part .identifier 29 30 [], token "," 30,
                    part .arrowFunction 32 45 [
                      role .parameters .formalParameters 32 34 [token "(" 32, token ")" 33],
                      token "=>" 35,
                      inRole .body (stepCall 38)],
                    token ")" 45]],
                token ";" 46],
              part .expressionStatement 50 90 [
                part (.other "internal_module") 50 90 [
                  token "namespace" 50,
                  role .name .identifier 60 61 [],
                  role .body .statementBlock 62 90 [
                    token "\x7b" 62,
                    part .classDeclaration 64 88 [
                      keyword .classExpression 64,
                      role .name (.other "type_identifier") 70 71 [],
                      role .body .classBody 72 88 [
                        token "\x7b" 72,
                        part (.other "public_field_definition") 74 85 [
                          role .name (.other "property_identifier") 74 75 [],
                          token "=" 76,
                          inRole .value (stepCall 78)],
                        token ";" 85,
                        token "\x7d" 87]],
                    token "\x7d" 89]]],
              token "\x7d" 91]],
          token ")" 92]],
      token ";" 93]]

end Sample

/-- A step in the callback of `when` and one in a class inside a namespace. -/
theorem Analysis.nodes_come_from_entered_functions_nested :
    Sample.nestedTree.label.flawed = false ∧ (∀ n ∈ Sample.nestedTree.nodes, n.Regular) ∧
      ∃ a after w, Analysis.run { assumeImported := true } ⟨0, 0, 0⟩ Sample.nestedSource
          Sample.nestedTree 0 = .ok (a, after) ∧ w ∈ a.allWorkflows ∧
        w.walk.map Flow.typeName = ["sequence", "conditional", "step", "step"] ∧
        ∃ entry callback, Assembly.bodyOf? entry = some callback ∧
          ∀ f ∈ w.walk, f.isSequence ∨
            ∃ s, ((Assembly.ofFile { assumeImported := true } ⟨0, 0, 0⟩ Sample.nestedSource
                Sample.nestedTree).reader entry callback).Within callback s ∧
              f.tag.location = some (Sample.nestedSource.location s.node) := by
  have hrun : ((Analysis.run { assumeImported := true } ⟨0, 0, 0⟩ Sample.nestedSource
      Sample.nestedTree 0).toOption.map fun p => p.1.allWorkflows.map fun w =>
        w.walk.map Flow.typeName) = some [["sequence", "conditional", "step", "step"]] := by
    decide +kernel
  have hregular : ∀ n ∈ Sample.nestedTree.nodes, n.Regular := by decide +kernel
  obtain ⟨a, after, h, hall⟩ := Analysis.nodes_come_from_entered_functions
    { assumeImported := true } ⟨0, 0, 0⟩ Sample.nestedSource Sample.nestedTree 0 rfl hregular rfl
  rw [h] at hrun
  obtain ⟨w, ws, hw, hnames, -⟩ := List.map_eq_cons_iff.1 (Option.some.inj hrun)
  have hmem : w ∈ a.allWorkflows := by simp [hw]
  obtain ⟨entry, -, callback, before, hbody, -, hnodes⟩ := hall w hmem
  exact ⟨rfl, hregular, a, after, w, h, hmem, hnames, entry, callback, hbody, hnodes⟩

end FlowShape
