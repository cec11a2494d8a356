import Mathlib.Data.List.Lex
import FlowShape.Tree.Site

/-!
# The order of a walk

A walk through a tree keeps a list of the sites still to do. It comes to the sites that can be
reached through parts, to each of them once, and in document order: a site comes before those below
it, and all that is below a child comes before what is below a later child. A walk over nodes may
leave out some of them with all that is below.
-/

namespace FlowShape.Site

/-- One site is reached from another by going down through parts. -/
inductive Reaches : Site → Site → Prop
  | here (s : Site) : s.Reaches s
  | part {s t : Site} {i : Nat} {c : Node} : s.node.children[i]? = some c → c.isPart →
      Reaches ⟨c, ⟨s.node, i⟩ :: s.above⟩ t → s.Reaches t

/-- The places of the children that lead from the root down to a site. -/
def path (s : Site) : List Nat := (s.above.map Frame.index).reverse

/-- Document order of the sites of a tree. -/
def Precedes (s t : Site) : Prop := List.Lex (· < ·) s.path t.path

/-- All at or below one site comes before all at or below another. -/
def Apart (s t : Site) : Prop :=
  ∀ below below', List.Lex (· < ·) (s.path ++ below) (t.path ++ below')

variable {s t : Site} {agenda rest : List Site}

@[simp] theorem path_child (s : Site) (i : Nat) (c : Node) :
    path ⟨c, ⟨s.node, i⟩ :: s.above⟩ = s.path ++ [i] := by
  simp [path]

theorem mem_parts_iff :
    t ∈ s.parts ↔ ∃ i c, s.node.children[i]? = some c ∧ c.isPart ∧
      t = ⟨c, ⟨s.node, i⟩ :: s.above⟩ := by
  simp only [parts, List.mem_map, List.mem_filter, Prod.exists, List.mem_zipIdx_iff_getElem?]
  grind

theorem reaches_iff : s.Reaches t ↔ s = t ∨ ∃ u ∈ s.parts, u.Reaches t := by
  constructor
  · intro h
    cases h with
    | here => exact .inl rfl
    | part hc hpart h => exact .inr ⟨_, mem_parts_iff.2 ⟨_, _, hc, hpart, rfl⟩, h⟩
  · rintro (rfl | ⟨u, hu, h⟩)
    · exact .here s
    · obtain ⟨i, c, hc, hpart, rfl⟩ := mem_parts_iff.1 hu
      exact .part hc hpart h

theorem Reaches.exists_path_eq (h : s.Reaches t) : ∃ below, t.path = s.path ++ below := by
  induction h with
  | here s => exact ⟨[], by simp⟩
  | @part s t i c hc hpart h ih =>
    obtain ⟨below, hbelow⟩ := ih
    exact ⟨i :: below, by simp [hbelow]⟩

/-- A walk comes to what is reached from the sites still to do, and to nothing else. -/
theorem mem_visit_iff : t ∈ visit agenda ↔ ∃ s ∈ agenda, s.Reaches t := by
  fun_induction visit agenda with
  | case1 => simp
  | case2 s rest ih =>
    rw [List.mem_cons, ih, List.exists_mem_cons_iff, reaches_iff]
    grind

/-! ## Document order -/

theorem Precedes.ne (h : s.Precedes t) : s ≠ t := by
  rintro rfl
  exact List.lex_irrefl Nat.lt_irrefl _ h

theorem Apart.precedes (h : s.Apart t) {u v : Site} (hu : s.Reaches u) (hv : t.Reaches v) :
    u.Precedes v := by
  obtain ⟨below, hbelow⟩ := hu.exists_path_eq
  obtain ⟨below', hbelow'⟩ := hv.exists_path_eq
  rw [Precedes, hbelow, hbelow']
  exact h below below'

theorem precedes_of_mem_parts {u v : Site} (hu : u ∈ s.parts) (hv : u.Reaches v) :
    s.Precedes v := by
  obtain ⟨i, c, -, -, rfl⟩ := mem_parts_iff.1 hu
  obtain ⟨below, hbelow⟩ := hv.exists_path_eq
  have hlex : List.Lex (· < ·) (s.path ++ []) (s.path ++ i :: below) :=
    List.Lex.append_left _ .nil s.path
  simpa [Precedes, hbelow] using hlex

theorem Apart.of_mem_parts (h : s.Apart t) {u : Site} (hu : u ∈ s.parts) : u.Apart t := by
  obtain ⟨i, c, -, -, rfl⟩ := mem_parts_iff.1 hu
  intro below below'
  simpa using h (i :: below) below'

theorem pairwise_apart_parts (s : Site) : s.parts.Pairwise Apart := by
  have hindex : s.node.children.zipIdx.Pairwise fun p q => p.2 < q.2 := by
    rw [← List.pairwise_map, List.zipIdx_map_snd]
    exact List.pairwise_lt_range' 1
  refine List.pairwise_map.2 ((hindex.filter _).imp ?_)
  intro p q hlt below below'
  simpa using List.Lex.append_left _ (.rel hlt) s.path

/-- One step of a walk keeps the sites still to do apart and in order. -/
theorem pairwise_apart_step (h : (s :: rest).Pairwise Apart) :
    (s.parts ++ rest).Pairwise Apart := by
  obtain ⟨hs, hrest⟩ := List.pairwise_cons.1 h
  refine List.pairwise_append.2 ⟨s.pairwise_apart_parts, hrest, ?_⟩
  intro u hu t ht
  exact (hs t ht).of_mem_parts hu

theorem pairwise_precedes_visit (h : agenda.Pairwise Apart) :
    (visit agenda).Pairwise Precedes := by
  fun_induction visit agenda with
  | case1 => exact .nil
  | case2 s rest ih =>
    refine List.pairwise_cons.2 ⟨?_, ih (pairwise_apart_step h)⟩
    intro v hv
    obtain ⟨u, hu, huv⟩ := mem_visit_iff.1 hv
    rcases List.mem_append.1 hu with hu | hu
    · exact precedes_of_mem_parts hu huv
    · exact ((List.pairwise_cons.1 h).1 u hu).precedes (.here s) huv

/-! ## Calls -/

theorem mem_calls_iff {tree : Node} :
    s ∈ calls tree ↔ (root tree).Reaches s ∧ s.node.kind = .callExpression := by
  simp [calls, mem_visit_iff]

theorem pairwise_precedes_calls (tree : Node) : (calls tree).Pairwise Precedes :=
  (pairwise_precedes_visit (List.pairwise_singleton _ _)).filter _

end FlowShape.Site

/-! ## Walks that leave nodes out -/

namespace FlowShape.Node

variable {enter : Node → Bool} {n c d : Node} {agenda : List Node}

/-- One node is reached from another by going down through parts that are entered. -/
inductive Reaches (enter : Node → Bool) : Node → Node → Prop
  | here (n : Node) : Reaches enter n n
  | part {n c d : Node} : c ∈ n.parts → enter c → Reaches enter c d → Reaches enter n d

theorem reaches_iff : n.Reaches enter d ↔ n = d ∨ ∃ c ∈ n.parts, enter c ∧ c.Reaches enter d := by
  constructor
  · intro h
    cases h with
    | here => exact .inl rfl
    | part hc henter h => exact .inr ⟨_, hc, henter, h⟩
  · rintro (rfl | ⟨c, hc, henter, h⟩)
    · exact .here n
    · exact .part hc henter h

theorem mem_visit_iff : d ∈ visit enter agenda ↔ ∃ n ∈ agenda, n.Reaches enter d := by
  fun_induction visit enter agenda with
  | case1 => simp
  | case2 n rest ih =>
    rw [List.mem_cons, ih, List.exists_mem_cons_iff, reaches_iff]
    grind

end FlowShape.Node
