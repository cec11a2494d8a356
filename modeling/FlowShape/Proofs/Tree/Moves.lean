import FlowShape.Proofs.Reading.Entering
import FlowShape.Proofs.Tree.Preorder

/-!
# Moves between sites

The moves through a syntax tree lead from node to node. Here they lead from site to site, so that it
is known where in the tree they end: down to a child of any sort, to a child in a field, to the
first part, and through wrappers to what is inside.
-/

namespace FlowShape.Site

variable {s t : Site} {tree : Node}

/-! ## Down through children -/

/-- One site is reached from another by going down through children of any sort. -/
inductive Holds : Site → Site → Prop
  | here (s : Site) : s.Holds s
  | child {s t : Site} {i : Nat} {c : Node} : s.node.children[i]? = some c →
      Holds ⟨c, ⟨s.node, i⟩ :: s.above⟩ t → s.Holds t

theorem Holds.exists_path_eq (h : s.Holds t) : ∃ below, t.path = s.path ++ below := by
  induction h with
  | here s => exact ⟨[], by simp⟩
  | @child s t i c hc h ih =>
    obtain ⟨below, hbelow⟩ := ih
    exact ⟨i :: below, by simp [hbelow]⟩

/-- The way up from a site that is held goes through nodes that are held as well. -/
theorem Holds.exists_above_eq (h : s.Holds t) :
    ∃ inner, t.above = inner ++ s.above ∧ ∀ frame ∈ inner, frame.parent ∈ s.node.nodes := by
  induction h with
  | here s => exact ⟨[], rfl, by simp⟩
  | @child s t i c hc h ih =>
    obtain ⟨inner, habove, hinner⟩ := ih
    refine ⟨inner ++ [⟨s.node, i⟩], by simp [habove], fun frame hframe => ?_⟩
    rcases List.mem_append.1 hframe with hframe | hframe
    · exact Node.mem_nodes_of_mem_children (List.mem_of_getElem? hc) (hinner frame hframe)
    · rw [List.mem_singleton.1 hframe]
      exact s.node.self_mem_nodes

theorem Holds.mem_nodes (h : s.Holds t) : t.node ∈ s.node.nodes := by
  induction h with
  | here s => exact s.node.self_mem_nodes
  | child hc _ ih => exact Node.mem_nodes_of_mem_children (List.mem_of_getElem? hc) ih

theorem Holds.snoc (h : s.Holds t) {i : Nat} {c : Node} (hc : t.node.children[i]? = some c) :
    s.Holds ⟨c, ⟨t.node, i⟩ :: t.above⟩ := by
  induction h with
  | here s => exact .child hc (.here _)
  | child hd _ ih => exact .child hd (ih hc)

theorem Below.of_holds (hs : Below tree s) (h : s.Holds t) : Below tree t := by
  induction h with
  | here => exact hs
  | child hc _ ih => exact ih (.child hs hc)

theorem holds_root_iff : (root tree).Holds t ↔ Below tree t := by
  constructor
  · exact Below.root.of_holds
  · intro h
    induction h with
    | root => exact .here _
    | child _ hc ih => exact ih.snoc hc

/-- The last step down to a site. -/
theorem Below.of_cons {c : Node} {frame : Frame} {above : List Frame}
    (h : Below tree ⟨c, frame :: above⟩) :
    Below tree ⟨frame.parent, above⟩ ∧ frame.parent.children[frame.index]? = some c := by
  generalize hs : (⟨c, frame :: above⟩ : Site) = s at h
  cases h with
  | root => cases hs
  | child h hc =>
    cases hs
    exact ⟨h, hc⟩

/-! ## Down to one child -/

/-- The site of the first child that satisfies a condition. -/
def findChild? (s : Site) (p : Node → Bool) : Option Site :=
  (s.node.children.findIdx? p).bind fun i =>
    s.node.children[i]?.map fun c => ⟨c, ⟨s.node, i⟩ :: s.above⟩

def child? (s : Site) (f : Field) : Option Site := s.findChild? (·.label.field == some f)

def firstPart? (s : Site) : Option Site := s.findChild? Node.isPart

theorem findChild?_eq_some_iff {p : Node → Bool} :
    s.findChild? p = some t ↔ ∃ i c, s.node.children.findIdx? p = some i ∧
      s.node.children[i]? = some c ∧ t = ⟨c, ⟨s.node, i⟩ :: s.above⟩ := by
  simp only [findChild?, Option.bind_eq_some_iff, Option.map_eq_some_iff]
  grind

theorem map_node_findChild? (s : Site) (p : Node → Bool) :
    (s.findChild? p).map node = s.node.children.find? p := by
  rw [findChild?, List.find?_eq_bind_findIdx?_getElem?, Option.map_bind]
  simp [Function.comp_def]

theorem map_node_child? (s : Site) (f : Field) : (s.child? f).map node = s.node.child? f :=
  s.map_node_findChild? _

theorem map_node_firstPart? (s : Site) : s.firstPart?.map node = s.node.firstPart? := by
  rw [firstPart?, map_node_findChild?, Node.firstPart?, Node.parts, List.head?_filter]

theorem size_lt_of_firstPart? (h : s.firstPart? = some t) : t.node.size < s.node.size := by
  obtain ⟨i, c, -, hc, rfl⟩ := findChild?_eq_some_iff.1 h
  exact Node.size_lt_of_mem (List.mem_of_getElem? hc)

/-- The site inside the wrappers at a site. -/
def unwrap (s : Site) : Site :=
  if s.node.kind.isTransparent then
    match _h : s.firstPart? with
    | some inner => inner.unwrap
    | none => s
  else s
termination_by s.node.size
decreasing_by exact size_lt_of_firstPart? _h

theorem unwrap_of_not_transparent (h : s.node.kind.isTransparent = false) : s.unwrap = s := by
  rw [unwrap]
  simp [h]

theorem unwrap_of_firstPart? (h : s.node.kind.isTransparent) (ht : s.firstPart? = some t) :
    s.unwrap = t.unwrap := by
  conv_lhs => rw [unwrap]
  split
  · split <;> simp_all
  · contradiction

/-- Between sites, unwrapping is the same as between nodes. -/
theorem node_unwrap (s : Site) : s.unwrap.node = s.node.unwrap := by
  fun_induction unwrap s with
  | case1 s ht inner h ih =>
    have hpart : s.node.firstPart? = some inner.node := by simp [← map_node_firstPart?, h]
    rw [ih, Node.unwrap_of_firstPart? ht hpart]
  | case2 s ht h =>
    have hpart : s.node.firstPart? = none := by simp [← map_node_firstPart?, h]
    rw [Node.unwrap_of_bare hpart]
  | case3 s ht => rw [Node.unwrap_of_not_transparent (by simpa using ht)]

end FlowShape.Site
