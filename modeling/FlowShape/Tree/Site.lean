import FlowShape.Tree.Search

/-!
# Sites

A site is a node together with the way up to the root. Two occurrences of equal nodes in a tree are
different sites.
-/

namespace FlowShape

/-- One step of the way up: a node and which of its children the way comes from. -/
structure Frame where
  parent : Node
  index : Nat

/-- Whether the way up comes from the first child in a field. -/
def Frame.isField (frame : Frame) (f : Field) : Bool :=
  frame.parent.children.findIdx? (·.label.field == some f) == some frame.index

/-- A node in its tree; `above` lists the enclosing nodes, the nearest first. -/
structure Site where
  node : Node
  above : List Frame

namespace Site

def root (n : Node) : Site := ⟨n, []⟩

/-- The sites of the parts of a node. -/
def parts (s : Site) : List Site :=
  (s.node.children.zipIdx.filter (·.1.isPart)).map fun (c, i) => ⟨c, ⟨s.node, i⟩ :: s.above⟩

theorem map_node_parts (s : Site) : s.parts.map node = s.node.parts := by
  have key (cs : List Node) (k : Nat) :
      ((cs.zipIdx k).filter (·.1.isPart)).map (·.1) = cs.filter Node.isPart := by
    induction cs generalizing k with
    | nil => rfl
    | cons c cs ih =>
      rw [List.zipIdx_cons, List.filter_cons, List.filter_cons]
      split <;> simp_all
  simpa [parts, Node.parts, Function.comp_def] using key s.node.children 0

/-- The sites at or below those of the agenda, reached through parts: parents first and in document
order. -/
def visit : List Site → List Site
  | [] => []
  | s :: rest => s :: visit (s.parts ++ rest)
termination_by agenda => Node.sizeAll (agenda.map node)
decreasing_by
  have := Node.sizeAll_filter_le Node.isPart s.node.children
  have := s.node.size_eq
  simp only [List.map_append, List.map_cons, map_node_parts, Node.sizeAll_append, Node.sizeAll,
    Node.parts] at *
  omega

/-- The sites of the calls of a tree. -/
def calls (tree : Node) : List Site :=
  (visit [root tree]).filter (·.node.kind == .callExpression)

end Site

end FlowShape
