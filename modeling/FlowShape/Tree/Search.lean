import FlowShape.Tree.Node

/-!
# Searches through a syntax tree

`visit` goes through a tree with a list of the nodes still to do, parents first and in document
order. `preorder` is the same order by recursion.
-/

namespace FlowShape.Node

/-- The nodes at or below those of the agenda, reached through parts that satisfy `enter`. -/
def visit (enter : Node → Bool) : List Node → List Node
  | [] => []
  | n :: rest => n :: visit enter (n.parts.filter enter ++ rest)
termination_by agenda => sizeAll agenda
decreasing_by
  have := sizeAll_filter_le enter n.parts
  have := sizeAll_filter_le isPart n.children
  have := n.size_eq
  simp only [sizeAll_append, sizeAll, parts] at *
  omega

theorem size_le_of_mem_visit {enter : Node → Bool} {agenda : List Node} {c : Node}
    (h : c ∈ visit enter agenda) : ∃ n ∈ agenda, c.size ≤ n.size := by
  fun_induction visit enter agenda with
  | case1 => cases h
  | case2 n rest ih =>
    rcases List.mem_cons.1 h with rfl | h
    · exact ⟨c, by simp, Nat.le_refl _⟩
    · obtain ⟨m, hm, hle⟩ := ih h
      rcases List.mem_append.1 hm with hm | hm
      · have := size_lt_of_mem_parts (List.mem_filter.1 hm).1
        exact ⟨n, by simp, by omega⟩
      · exact ⟨m, by simp [hm], hle⟩

mutual

/-- A node and the nodes below it, reached through parts that satisfy `enter`. -/
def preorder (enter : Node → Bool) : Node → List Node
  | mk label children => mk label children :: preorderAll enter children

def preorderAll (enter : Node → Bool) : List Node → List Node
  | [] => []
  | c :: cs => (if c.isPart && enter c then c.preorder enter else []) ++ preorderAll enter cs

end

/-- The named nodes of a tree that are no comments, parents first. -/
def allParts (n : Node) : List Node := n.preorder fun _ => true

/-- The first node at or below `n`, outside nested functions, that satisfies `p`. -/
def findOutsideFunctions? (p : Node → Bool) (n : Node) : Option Node :=
  (visit (!·.isFunctionScope) [n]).find? p

theorem size_le_of_findOutsideFunctions? {p : Node → Bool} {n c : Node}
    (h : n.findOutsideFunctions? p = some c) : c.size ≤ n.size := by
  obtain ⟨m, hm, hle⟩ := size_le_of_mem_visit (List.mem_of_find?_eq_some h)
  simp only [List.mem_singleton] at hm
  subst hm
  exact hle

end FlowShape.Node
