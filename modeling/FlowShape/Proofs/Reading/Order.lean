import Mathlib.Data.List.Flatten
import FlowShape.Proofs.Reading.Descent
import FlowShape.Proofs.Tree.Order

/-!
# Order of what is read

In a well arranged tree, reading finds leaves in document order and at separate places, and finds
each outline inside the range of the one around it.
-/

namespace FlowShape

namespace Outline

/-- The nodes from which the leaves of outlines were read. -/
def leafOrigins (os : List Outline) : List Node := (os.flatMap leaves).map (·.1)

/-- Each outline inside was read from inside the range of its outline. -/
inductive Nested : Outline → Prop
  | intro (o : Outline) : (∀ p ∈ o.inside, o.origin.Encloses p.origin) →
      (∀ p ∈ o.inside, p.Nested) → o.Nested

end Outline

open Outline (leafOrigins)

namespace Node

/-- Nodes of a tree in document order, each of which ends before the next one starts. -/
structure InOrder (n : Node) (origins : List Node) : Prop where
  sublist : origins.Sublist n.nodes
  disjoint : origins.Pairwise (·.stop ≤ ·.start)

/-- What is in order in each child is in order in the node. -/
theorem WellArranged.inOrder_collect {n : Node} (h : n.WellArranged) {g : Nat → Node → List Node}
    (hg : ∀ i, ∀ c ∈ n.children, c.InOrder (g i c)) : n.InOrder (n.collect g) := by
  constructor
  · rw [nodes_eq, ← flatMap_zipIdx_fst n.children 0]
    refine List.Sublist.cons _ (List.Sublist.flatMap_right _ fun ⟨c, i⟩ hc => ?_)
    exact (hg i c (List.fst_mem_of_mem_zipIdx hc)).sublist
  · have hwithin : ∀ p ∈ n.children.zipIdx, ∀ x ∈ g p.2 p.1, p.1.Encloses x := by
      intro ⟨c, i⟩ hc x hx
      have hmem := List.fst_mem_of_mem_zipIdx hc
      exact (h.of_child hmem).encloses ((hg i c hmem).sublist.subset hx)
    have hordered : n.children.zipIdx.Pairwise (·.1.stop ≤ ·.1.start) := by
      rw [← List.pairwise_map (f := Prod.fst) (R := fun c d : Node => c.stop ≤ d.start),
        List.zipIdx_map_fst]
      exact h.arranged.ordered
    refine List.pairwise_flatMap.2 ⟨fun ⟨c, i⟩ hc => ?_, ?_⟩
    · exact (hg i c (List.fst_mem_of_mem_zipIdx hc)).disjoint
    · refine hordered.imp_of_mem fun hp hq hle x hx y hy => ?_
      exact Nat.le_trans (hwithin _ hp x hx).2 (Nat.le_trans hle (hwithin _ hq y hy).1)

end Node

namespace Reader

theorem leafOrigins_of_built {n : Node} {isStep : Bool} {os ps : List Outline}
    (h : Built n isStep os ps) : leafOrigins ps = leafOrigins os ∨ leafOrigins ps = [n] := by
  cases h with
  | pass => exact .inl rfl
  | leaf l => exact .inr (by simp [leafOrigins])
  | wrap os o horigin hleaf =>
    have ho := Outline.leaves_of_not_isLeaf (o := o) (by simpa using hleaf)
    exact .inl (by simp [leafOrigins, ho])

theorem inOrder_read (r : Reader) (m : Mode) {n : Node} (h : n.WellArranged) :
    n.InOrder (leafOrigins (r.read m n)) := by
  induction n using Node.childrenInduction generalizing m with
  | h n ih =>
    obtain ⟨os, hfound, hbuilt⟩ := r.readsInside m n
    have hinner : n.InOrder (leafOrigins (r.inner m n)) := by
      have hcollect : leafOrigins (r.inner m n) = n.collect fun i c =>
          leafOrigins ((r.passage m n i c).lift fun m' => r.read m' c) := by
        simp only [inner, Node.collect, leafOrigins, List.flatMap_assoc, List.map_flatMap]
      rw [hcollect]
      refine h.inOrder_collect fun i c hc => ?_
      cases r.passage m n i c with
      | enters m' => exact ih c hc m' (h.of_child hc)
      | overlooks | seals => exact ⟨List.nil_sublist _, .nil⟩
    rcases leafOrigins_of_built hbuilt with hread | hread
    · rwa [hread, hfound.eq h.arranged.fields]
    · rw [hread]
      exact ⟨List.singleton_sublist.2 n.self_mem_nodes, List.pairwise_singleton ..⟩

theorem nested_read (r : Reader) (m : Mode) {n : Node} (h : n.WellArranged) :
    ∀ o ∈ r.read m n, n.Encloses o.origin ∧ o.Nested := by
  induction n using Node.childrenInduction generalizing m with
  | h n ih =>
    obtain ⟨os, hfound, hbuilt⟩ := r.readsInside m n
    have hinner : ∀ o ∈ os, n.Encloses o.origin ∧ o.Nested := by
      intro o ho
      obtain ⟨i, c, hc, ho⟩ := Node.mem_collect (hfound.perm.mem_iff.1 ho)
      cases hp : r.passage m n i c with
      | enters m' =>
        rw [hp] at ho
        obtain ⟨hencloses, hnested⟩ := ih c hc m' (h.of_child hc) o ho
        exact ⟨(h.arranged.nested c hc).trans hencloses, hnested⟩
      | overlooks | seals =>
        rw [hp] at ho
        cases ho
    generalize r.read m n = ps at hbuilt
    generalize r.isStepAs m n = isStep at hbuilt
    cases hbuilt with
    | pass => exact hinner
    | leaf l =>
      intro o ho
      rw [List.mem_singleton.1 ho]
      exact ⟨.refl n, .intro _ nofun nofun⟩
    | wrap os o horigin hleaf =>
      subst horigin
      obtain ⟨hos, hinside⟩ := List.forall_mem_append.1 hinner
      refine List.forall_mem_append.2 ⟨hos, fun p hp => ?_⟩
      rw [List.mem_singleton.1 hp]
      exact ⟨.refl _, .intro o (fun q hq => (hinside q hq).1) fun q hq => (hinside q hq).2⟩

end Reader

end FlowShape
