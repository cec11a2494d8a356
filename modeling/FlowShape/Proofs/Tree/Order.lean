import FlowShape.Proofs.Tree.Children
import FlowShape.Source

/-!
# Document order

In a tree that a parser made, the children of a node stand one after the other inside the range of
the node. Then all nodes of a tree lie inside its range, and a node that comes from a later child
starts where the others have ended. Positions grow with offsets, so that ranges of text compare as
ranges of bytes do.
-/

namespace FlowShape

namespace Node

mutual

/-- All nodes of a tree in document order, parents first. -/
def nodes : Node → List Node
  | mk label children => mk label children :: nodesAll children

def nodesAll : List Node → List Node
  | [] => []
  | n :: ns => n.nodes ++ nodesAll ns

end

theorem nodes_eq (n : Node) : n.nodes = n :: n.children.flatMap nodes := by
  have key (ns : List Node) : nodesAll ns = ns.flatMap nodes := by
    induction ns with
    | nil => rw [nodesAll]; rfl
    | cons n ns ih => rw [nodesAll, ih, List.flatMap_cons]
  cases n with
  | mk label children => rw [nodes, key]; rfl

theorem self_mem_nodes (n : Node) : n ∈ n.nodes := by
  rw [nodes_eq]
  exact List.mem_cons_self

theorem nodes_sublist_of_mem_children {n c : Node} (h : c ∈ n.children) :
    c.nodes.Sublist n.nodes := by
  rw [nodes_eq n]
  refine List.Sublist.cons _ ?_
  obtain ⟨before, after, hsplit⟩ := List.append_of_mem h
  rw [hsplit, List.flatMap_append, List.flatMap_cons]
  exact (List.sublist_append_left ..).trans (List.sublist_append_right ..)

theorem nodes_sublist_of_mem {n d : Node} (h : d ∈ n.nodes) : d.nodes.Sublist n.nodes := by
  induction n using childrenInduction with
  | h n ih =>
    rw [nodes_eq] at h
    rcases List.mem_cons.1 h with rfl | h
    · exact .refl _
    · obtain ⟨c, hc, hd⟩ := List.mem_flatMap.1 h
      exact (ih c hc hd).trans (nodes_sublist_of_mem_children hc)

theorem mem_nodes_of_mem_children {n c d : Node} (hc : c ∈ n.children) (hd : d ∈ c.nodes) :
    d ∈ n.nodes :=
  (nodes_sublist_of_mem_children hc).subset hd

/-- The range of a node lies inside that of another. -/
def Encloses (n d : Node) : Prop := n.start ≤ d.start ∧ d.stop ≤ n.stop

theorem Encloses.refl (n : Node) : n.Encloses n := ⟨Nat.le_refl _, Nat.le_refl _⟩

theorem Encloses.trans {n c d : Node} (h : n.Encloses c) (h' : c.Encloses d) : n.Encloses d :=
  ⟨Nat.le_trans h.1 h'.1, Nat.le_trans h'.2 h.2⟩

/-- The children of a node stand in its range, one after the other, and so do its fields. -/
structure Arranged (n : Node) : Prop where
  nested : ∀ c ∈ n.children, n.Encloses c
  ordered : n.children.Pairwise (·.stop ≤ ·.start)
  fields : n.FieldsInOrder

instance (n : Node) : Decidable n.Arranged :=
  decidable_of_iff ((∀ c ∈ n.children, n.start ≤ c.start ∧ c.stop ≤ n.stop) ∧
      n.children.Pairwise (·.stop ≤ ·.start) ∧
      [Field.condition, .consequence, .alternative].Pairwise n.FieldBefore ∧
      [Field.body, .handler, .finalizer].Pairwise n.FieldBefore)
    ⟨fun ⟨nested, ordered, condition, body⟩ => ⟨nested, ordered, condition, body⟩,
      fun h => ⟨h.nested, h.ordered, h.fields.condition, h.fields.body⟩⟩

/-- All nodes of a tree are arranged. -/
def WellArranged (tree : Node) : Prop := ∀ n ∈ tree.nodes, n.Arranged

instance (tree : Node) : Decidable tree.WellArranged :=
  inferInstanceAs (Decidable (∀ n ∈ tree.nodes, n.Arranged))

namespace WellArranged

variable {n c d : Node}

theorem arranged (h : n.WellArranged) : n.Arranged := h n n.self_mem_nodes

theorem of_mem (h : n.WellArranged) (hd : d ∈ n.nodes) : d.WellArranged :=
  fun e he => h e ((nodes_sublist_of_mem hd).subset he)

theorem of_child (h : n.WellArranged) (hc : c ∈ n.children) : c.WellArranged :=
  fun e he => h e (mem_nodes_of_mem_children hc he)

theorem encloses (h : n.WellArranged) (hd : d ∈ n.nodes) : n.Encloses d := by
  induction n using childrenInduction with
  | h n ih =>
    rw [nodes_eq] at hd
    rcases List.mem_cons.1 hd with rfl | hd
    · exact .refl _
    · obtain ⟨c, hc, hd⟩ := List.mem_flatMap.1 hd
      exact (h.arranged.nested c hc).trans (ih c hc (h.of_child hc) hd)

end WellArranged

end Node

/-! ## Positions -/

namespace Position

/-- The order of positions in a text. -/
def Le (p q : Position) : Prop := p.row < q.row ∨ p.row = q.row ∧ p.column ≤ q.column

theorem Le.refl (p : Position) : p.Le p := .inr ⟨rfl, Nat.le_refl _⟩

theorem Le.trans {p q s : Position} (h : p.Le q) (h' : q.Le s) : p.Le s := by
  unfold Le at *
  omega

theorem le_advance (p : Position) (i : Nat) (cs : List Char) : p.Le (p.advance i cs) := by
  induction cs generalizing p i with
  | nil => cases i <;> exact .refl p
  | cons c cs ih =>
    cases i with
    | zero => exact .refl p
    | succ i =>
      rw [advance]
      split
      · exact .inr ⟨rfl, by simp⟩
      · split
        · have hstep : p.Le ⟨p.row + 1, 0⟩ := .inl (Nat.lt_succ_self _)
          exact hstep.trans (ih _ _)
        · have hstep : p.Le ⟨p.row, p.column + c.utf8Size⟩ := .inr ⟨rfl, Nat.le_add_right ..⟩
          exact hstep.trans (ih _ _)

theorem advance_mono (p : Position) {i j : Nat} (h : i ≤ j) (cs : List Char) :
    (p.advance i cs).Le (p.advance j cs) := by
  induction cs generalizing p i j with
  | nil => cases i <;> cases j <;> exact .refl p
  | cons c cs ih =>
    cases i with
    | zero => exact le_advance p j (c :: cs)
    | succ i =>
      obtain ⟨j, rfl⟩ : ∃ k, j = k + 1 := ⟨j - 1, by omega⟩
      rw [advance, advance]
      by_cases hj : j + 1 < c.utf8Size
      · rw [if_pos hj, if_pos (by omega)]
        exact .inr ⟨rfl, by simpa using h⟩
      · rw [if_neg hj]
        by_cases hi : i + 1 < c.utf8Size
        · -- the first offset is inside the character, which is then no line feed
          have hc : c ≠ '\n' := by
            rintro rfl
            have : Char.utf8Size '\n' = 1 := rfl
            omega
          have hstep : Le ⟨p.row, p.column + (i + 1)⟩ ⟨p.row, p.column + c.utf8Size⟩ :=
            .inr ⟨rfl, Nat.add_le_add_left (Nat.le_of_lt hi) _⟩
          rw [if_pos hi, if_neg hc]
          exact hstep.trans (le_advance _ _ cs)
        · rw [if_neg hi]
          split
          · exact ih _ (by omega)
          · exact ih _ (by omega)

end Position

namespace Location

/-- Where a stretch of a file ends, if that is told. -/
def stop? (l : Location) : Option Position := do return ⟨← l.endLine, ← l.endColumn⟩

/-- A stretch of a file lies inside another; both tell where they end. -/
def Encloses (outer inner : Location) : Prop :=
  outer.filePath = inner.filePath ∧
    Position.Le ⟨outer.line, outer.column⟩ ⟨inner.line, inner.column⟩ ∧
    ∃ stop ∈ outer.stop?, ∃ stop' ∈ inner.stop?, stop'.Le stop

end Location

theorem Source.position_mono (src : Source) {i j : Nat} (h : i ≤ j) :
    (src.position i).Le (src.position j) :=
  Position.advance_mono _ h _

theorem Source.location_encloses (src : Source) {n d : Node} (h : n.Encloses d) :
    (src.location n).Encloses (src.location d) := by
  have hstart := src.position_mono h.1
  have hstop := src.position_mono h.2
  unfold Position.Le at hstart hstop
  refine ⟨rfl, ?_, _, rfl, _, rfl, ?_⟩
  · simp only [Position.Le, location]
    omega
  · simp only [Position.Le]
    omega

end FlowShape
