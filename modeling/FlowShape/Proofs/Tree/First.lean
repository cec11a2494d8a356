import FlowShape.Proofs.Tree.Preorder

/-!
# The first site

A search outside nested functions finds the first site, in document order, of all that are reached
without going into a function and that satisfy a condition. First is said of sites here, and not of
the search: no other such site comes before it.
-/

namespace FlowShape

namespace Site

variable {enter : Node → Bool} {s t : Site} {rest : List Site}

/-- The nodes on the way from the root down to a site, apart from the root, are all entered. -/
def enteredFrom (enter : Node → Bool) : Node → List Frame → Bool
  | _, [] => true
  | n, frame :: above => enter n && enteredFrom enter frame.parent above

def isEntered (enter : Node → Bool) (s : Site) : Bool := enteredFrom enter s.node s.above

/-- A site that is not in a function below the root. -/
def isOutsideFunctions (s : Site) : Bool := s.isEntered (!·.isFunctionScope)

theorem isEntered_of_mem_parts (h : t ∈ s.parts) :
    t.isEntered enter = (enter t.node && s.isEntered enter) := by
  obtain ⟨i, c, -, -, rfl⟩ := mem_parts_iff.1 h
  rfl

/-- The parts of a site that is entered are entered if their nodes are. -/
theorem map_node_filter_parts (h : s.isEntered enter) :
    (s.parts.filter (isEntered enter)).map node = s.node.parts.filter enter := by
  have hfilter : s.parts.filter (isEntered enter) = s.parts.filter (enter ∘ node) :=
    List.filter_congr fun t ht => by rw [isEntered_of_mem_parts ht, h, Bool.and_true]; rfl
  rw [hfilter, ← map_node_parts, List.filter_map]

theorem filter_parts_eq_nil (h : s.isEntered enter = false) :
    s.parts.filter (isEntered enter) = [] := by
  refine List.filter_eq_nil_iff.2 fun t ht => ?_
  rw [isEntered_of_mem_parts ht, h, Bool.and_false]
  exact Bool.false_ne_true

/-- A walk that leaves nodes out comes to the nodes of the sites that are entered. -/
theorem map_node_filter_visit (enter : Node → Bool) (agenda : List Site) :
    ((visit agenda).filter (isEntered enter)).map node =
      Node.visit enter ((agenda.filter (isEntered enter)).map node) := by
  fun_induction visit agenda with
  | case1 => simp [Node.visit]
  | case2 s rest ih =>
    cases h : s.isEntered enter with
    | true =>
      rw [List.filter_cons_of_pos h, List.filter_cons_of_pos h, List.map_cons, List.map_cons,
        Node.visit, ih, List.filter_append, List.map_append, map_node_filter_parts h]
    | false =>
      -- nothing below the site is entered, so the agenda only loses the site
      rw [List.filter_cons_of_neg (by simp [h]), List.filter_cons_of_neg (by simp [h]), ih,
        List.filter_append, filter_parts_eq_nil h, List.nil_append]

/-! ## First sites -/

theorem Precedes.asymm (h : s.Precedes t) : ¬t.Precedes s := List.lex_asymm Nat.lt_asymm h

theorem first_of_find? {sites : List Site} {q : Site → Bool} (hsites : sites.Pairwise Precedes)
    (h : sites.find? q = some s) : ∀ t ∈ sites, q t → t = s ∨ s.Precedes t := by
  obtain ⟨-, before, behind, rfl, hbefore⟩ := List.find?_eq_some_iff_append.1 h
  intro t ht hq
  rcases List.mem_append.1 ht with ht | ht
  · have hnot := hbefore t ht
    rw [hq] at hnot
    cases hnot
  · have hbehind := (List.pairwise_append.1 hsites).2.1
    exact (List.mem_cons.1 ht).imp_right ((List.pairwise_cons.1 hbehind).1 t)

/-- A site below a root, outside nested functions, whose node satisfies a condition. -/
structure Finds (p : Node → Bool) (root : Node) (s : Site) : Prop where
  reaches : (Site.root root).Reaches s
  outside : s.isOutsideFunctions
  holds : p s.node

/-- No other such site comes before this one. -/
structure IsFirst (p : Node → Bool) (root : Node) (s : Site) : Prop extends Finds p root s where
  first : ∀ t, Finds p root t → t = s ∨ s.Precedes t

theorem IsFirst.unique {p : Node → Bool} {root : Node} (hs : IsFirst p root s)
    (ht : IsFirst p root t) : s = t := by
  rcases hs.first t ht.toFinds with h | h
  · exact h.symm
  · rcases ht.first s hs.toFinds with h' | h'
    · exact h'
    · exact absurd h' h.asymm

/-- The sites below a root and outside nested functions, in document order. -/
def outsideFunctions (root : Node) : List Site :=
  (visit [.root root]).filter isOutsideFunctions

theorem pairwise_precedes_outsideFunctions (root : Node) :
    (outsideFunctions root).Pairwise Precedes :=
  (pairwise_precedes_visit (List.pairwise_singleton _ _)).filter _

theorem finds_iff {p : Node → Bool} {root : Node} :
    Finds p root s ↔ s ∈ outsideFunctions root ∧ p s.node := by
  rw [outsideFunctions, List.mem_filter, mem_visit_iff]
  constructor
  · intro h
    exact ⟨⟨⟨_, List.mem_singleton_self _, h.reaches⟩, h.outside⟩, h.holds⟩
  · rintro ⟨⟨⟨r, hr, hreaches⟩, houtside⟩, hp⟩
    rw [List.mem_singleton.1 hr] at hreaches
    exact ⟨hreaches, houtside, hp⟩

theorem isFirst_of_find? {p : Node → Bool} {root : Node}
    (h : (outsideFunctions root).find? (p ∘ node) = some s) : IsFirst p root s where
  toFinds := finds_iff.2 ⟨List.mem_of_find?_eq_some h, List.find?_some (p := p ∘ node) h⟩
  first t ht := by
    obtain ⟨hmem, hp⟩ := finds_iff.1 ht
    exact first_of_find? (pairwise_precedes_outsideFunctions root) h t hmem hp

end Site

namespace Node

variable {p : Node → Bool} {root d : Node}

theorem findOutsideFunctions?_eq (p : Node → Bool) (root : Node) :
    root.findOutsideFunctions? p =
      ((Site.outsideFunctions root).find? (p ∘ Site.node)).map Site.node := by
  have hroot : (Site.root root).isEntered (!·.isFunctionScope) := rfl
  have hvisit := Site.map_node_filter_visit (!·.isFunctionScope) [.root root]
  rw [List.filter_cons_of_pos hroot, List.filter_nil, List.map_singleton] at hvisit
  rw [findOutsideFunctions?, ← List.find?_map]
  exact congrArg (List.find? p) hvisit.symm

/-- The search outside nested functions finds the node of the first site. -/
theorem findOutsideFunctions?_eq_some_iff :
    root.findOutsideFunctions? p = some d ↔ ∃ s, Site.IsFirst p root s ∧ s.node = d := by
  rw [findOutsideFunctions?_eq, Option.map_eq_some_iff]
  constructor
  · rintro ⟨s, h, hd⟩
    exact ⟨s, Site.isFirst_of_find? h, hd⟩
  · rintro ⟨s, h, hd⟩
    obtain ⟨hmem, hp⟩ := Site.finds_iff.1 h.toFinds
    have hsome : ((Site.outsideFunctions root).find? (p ∘ Site.node)).isSome :=
      List.find?_isSome.2 ⟨s, hmem, hp⟩
    obtain ⟨t, ht⟩ := Option.isSome_iff_exists.1 hsome
    obtain rfl := h.unique (Site.isFirst_of_find? ht)
    exact ⟨s, ht, hd⟩

theorem findOutsideFunctions?_eq_none_iff :
    root.findOutsideFunctions? p = none ↔ ∀ s, ¬Site.Finds p root s := by
  rw [findOutsideFunctions?_eq, Option.map_eq_none_iff, List.find?_eq_none]
  simp only [Site.finds_iff, not_and]
  rfl

end Node

end FlowShape
