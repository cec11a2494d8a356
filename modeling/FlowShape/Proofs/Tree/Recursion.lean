import FlowShape.Proofs.Scope.Declaration
import FlowShape.Proofs.Tree.Preorder

/-!
# Walks by recursion

A walk keeps a list of what is still to do. What it has yet to come to is, at every moment, what a
recursion through the tree gathers from the list, one entry after the other. So the calls of a tree
are listed as by recursion, a search outside nested functions finds what is first by recursion, and
the search for variables gets to all that can be reached.
-/

namespace FlowShape

namespace Node

theorem preorderAll_eq (enter : Node → Bool) (cs : List Node) :
    preorderAll enter cs = ((cs.filter isPart).filter enter).flatMap (preorder enter) := by
  induction cs with
  | nil => rfl
  | cons c cs ih =>
    rw [preorderAll, ih, List.filter_cons]
    cases c.isPart with
    | false => rfl
    | true =>
      rw [if_pos rfl, List.filter_cons]
      cases enter c <;> rfl

theorem preorder_eq (enter : Node → Bool) (n : Node) :
    n.preorder enter = n :: (n.parts.filter enter).flatMap (preorder enter) := by
  cases n with
  | mk label children => rw [preorder, preorderAll_eq]; rfl

/-- A walk comes to what recursion gathers from the nodes still to do, one after the other. -/
theorem visit_eq_flatMap_preorder (enter : Node → Bool) (agenda : List Node) :
    visit enter agenda = agenda.flatMap (preorder enter) := by
  fun_induction visit enter agenda with
  | case1 => rfl
  | case2 n rest ih =>
    rw [ih, List.flatMap_append, List.flatMap_cons, preorder_eq, List.cons_append]

end Node

namespace Site

mutual

/-- The site of a node and the sites below it, reached through parts. -/
def preorderFrom (above : List Frame) : Node → List Site
  | .mk label children =>
    ⟨.mk label children, above⟩ :: preorderFromAll (.mk label children) above 0 children

/-- The same for the children of a node, of which the first has a given place. -/
def preorderFromAll (parent : Node) (above : List Frame) (i : Nat) : List Node → List Site
  | [] => []
  | c :: cs =>
    (if c.isPart then preorderFrom (⟨parent, i⟩ :: above) c else []) ++
      preorderFromAll parent above (i + 1) cs

end

/-- A site and the sites below it, parents first. -/
def preorder (s : Site) : List Site := preorderFrom s.above s.node

theorem preorderFromAll_eq (s : Site) (i : Nat) (cs : List Node) :
    preorderFromAll s.node s.above i cs =
      (((cs.zipIdx i).filter (·.1.isPart)).map fun (c, j) =>
        (⟨c, ⟨s.node, j⟩ :: s.above⟩ : Site)).flatMap preorder := by
  induction cs generalizing i with
  | nil => rfl
  | cons c cs ih =>
    rw [preorderFromAll, ih, List.zipIdx_cons, List.filter_cons]
    cases c.isPart <;> rfl

theorem preorder_eq (s : Site) : s.preorder = s :: s.parts.flatMap preorder := by
  obtain ⟨⟨label, children⟩, above⟩ := s
  rw [preorder, preorderFrom]
  exact congrArg _ (preorderFromAll_eq ⟨.mk label children, above⟩ 0 children)

/-- A walk comes to what recursion gathers from the sites still to do, one after the other. -/
theorem visit_eq_flatMap_preorder (agenda : List Site) :
    visit agenda = agenda.flatMap preorder := by
  fun_induction visit agenda with
  | case1 => rfl
  | case2 s rest ih =>
    rw [ih, List.flatMap_append, List.flatMap_cons, preorder_eq, List.cons_append]

end Site

namespace Source

/-- Walks find what recursion finds. The calls of a tree are those of its preorder by recursion,
and each call that can be reached is listed once. A search outside nested functions gives the first
node in the preorder that goes into no function below the root. A name is bound by a hoisted `var`
just if some `var` that is reached with no way through a function or a class expression below the
root has a declarator with the name in a binding position. -/
theorem walks_are_recursive_searches (src : Source) (name : String) (found : Node → Bool)
    (tree : Node) :
    (Site.calls tree = (Site.root tree).preorder.filter (·.node.kind == .callExpression) ∧
      (Site.calls tree).Nodup ∧
      ∀ s, s ∈ Site.calls tree ↔ (Site.root tree).Reaches s ∧ s.node.kind = .callExpression) ∧
    tree.findOutsideFunctions? found = (tree.preorder (!·.isFunctionScope)).find? found ∧
    (src.hoistedBinds name tree ↔ ∃ v,
      tree.Reaches (fun n => !n.isFunctionScope && n.kind != .classExpression) v ∧
      v.kind = .variableDeclaration ∧
      ∃ d ∈ v.parts, d.kind = .variableDeclarator ∧
        ∃ p, d.child? .name = some p ∧ src.Binds name p) := by
  refine ⟨⟨?_, ?_, fun s => Site.mem_calls_iff⟩, ?_, ?_⟩
  · rw [Site.calls, Site.visit_eq_flatMap_preorder, List.flatMap_singleton]
  · exact (Site.pairwise_precedes_calls tree).imp Site.Precedes.ne
  · rw [Node.findOutsideFunctions?, Node.visit_eq_flatMap_preorder, List.flatMap_singleton]
  · rw [hoistedBinds_iff]
    refine exists_congr fun v => and_congr_right fun _ => and_congr_right fun hkind => ?_
    rw [declares_binding_iff (.inr hkind)]
    exact exists_congr fun d => and_congr_right fun _ => and_congr_right binds_declarator_iff

end Source

end FlowShape
