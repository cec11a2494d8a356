import Mathlib.Data.List.Nodup
import Mathlib.Data.List.Perm.Basic
import FlowShape.Outline.Reading
import FlowShape.Tree.Site

/-!
# Children by their place

The moves through a syntax tree pick children by field or as parts. Here each move is told by the
places of the children it picks, so that what is gathered move by move can be compared with what is
gathered child by child.
-/

namespace FlowShape

namespace Node

variable {α : Type}

theorem childrenInduction {P : Node → Prop} (h : ∀ n : Node, (∀ c ∈ n.children, P c) → P n)
    (n : Node) : P n :=
  h n fun c _hc => childrenInduction h c
termination_by n.size
decreasing_by exact size_lt_of_mem _hc

theorem mem_children_of_mem_parts {n c : Node} (h : c ∈ n.parts) : c ∈ n.children :=
  (List.mem_filter.1 h).1

theorem mem_children_of_firstPart? {n c : Node} (h : n.firstPart? = some c) : c ∈ n.children :=
  mem_children_of_mem_parts (List.mem_of_mem_head? h)

theorem unwrap_of_not_transparent {n : Node} (h : n.kind.isTransparent = false) : n.unwrap = n := by
  rw [unwrap]
  simp [h]

theorem unwrap_of_firstPart? {n c : Node} (h : n.kind.isTransparent) (hc : n.firstPart? = some c) :
    n.unwrap = c.unwrap := by
  rw [unwrap]
  split
  · split <;> simp_all
  · contradiction

theorem unwrap_of_bare {n : Node} (h : n.firstPart? = none) : n.unwrap = n := by
  rw [unwrap]
  split
  · split <;> simp_all
  · rfl

/-- Unwrapping stops at a wrapper only if there is nothing in it. -/
theorem firstPart?_unwrap {n : Node} (h : n.unwrap.kind.isTransparent) :
    n.unwrap.firstPart? = none := by
  induction n using childrenInduction with
  | h n ih =>
    cases hc : n.firstPart? with
    | none => rwa [unwrap_of_bare hc]
    | some c =>
      by_cases ht : n.kind.isTransparent
      · rw [unwrap_of_firstPart? ht hc] at h ⊢
        exact ih c (mem_children_of_firstPart? hc) h
      · rw [unwrap_of_not_transparent (by simpa using ht)] at h
        contradiction

theorem unwrap_unwrap (n : Node) : n.unwrap.unwrap = n.unwrap := by
  by_cases h : n.unwrap.kind.isTransparent
  · exact unwrap_of_bare (firstPart?_unwrap h)
  · exact unwrap_of_not_transparent (by simpa using h)

theorem kind_ne_callExpression {n : Node} (h : n.kind.isTransparent) :
    n.kind ≠ .callExpression := by
  intro hk
  simp [hk, Kind.isTransparent] at h

theorem not_isFunctionLiteral {n : Node} (h : n.kind.isTransparent) :
    n.isFunctionLiteral = false := by
  cases hk : n.kind <;>
    simp_all [isFunctionLiteral, Kind.isFunctionLiteral, Kind.isTransparent]

/-- What is gathered from the children in order, each of which is known by its place. -/
def collect (n : Node) (g : Nat → Node → List α) : List α :=
  n.children.zipIdx.flatMap fun (c, i) => g i c

/-- The place of the first child in a field. -/
def fieldIndex? (n : Node) (f : Field) : Option Nat :=
  n.children.findIdx? (·.label.field == some f)

/-- The number of parts before a place. -/
def rank (n : Node) (i : Nat) : Nat := (n.children.take i).countP isPart

theorem getElem?_of_mem_collect {n : Node} {g : Nat → Node → List α} {x : α}
    (h : x ∈ n.collect g) : ∃ i c, n.children[i]? = some c ∧ x ∈ g i c := by
  obtain ⟨⟨c, i⟩, hc, hx⟩ := List.mem_flatMap.1 h
  exact ⟨i, c, List.mem_zipIdx_iff_getElem?.1 hc, hx⟩

theorem mem_collect {n : Node} {g : Nat → Node → List α} {x : α} (h : x ∈ n.collect g) :
    ∃ i, ∃ c ∈ n.children, x ∈ g i c := by
  obtain ⟨i, c, hc, hx⟩ := getElem?_of_mem_collect h
  exact ⟨i, c, List.mem_of_getElem? hc, hx⟩

theorem mem_collect_of_getElem? {n : Node} {g : Nat → Node → List α} {x : α} {i : Nat} {c : Node}
    (hc : n.children[i]? = some c) (hx : x ∈ g i c) : x ∈ n.collect g :=
  List.mem_flatMap.2 ⟨(c, i), List.mem_zipIdx_iff_getElem?.2 hc, hx⟩

theorem collect_congr {n : Node} {g g' : Nat → Node → List α}
    (h : ∀ i, ∀ c ∈ n.children, g i c = g' i c) : n.collect g = n.collect g' := by
  refine List.flatMap_congr fun ⟨c, i⟩ hc => ?_
  exact h i c (List.fst_mem_of_mem_zipIdx hc)

theorem collect_perm {n : Node} {g g' : Nat → Node → List α}
    (h : ∀ i, ∀ c ∈ n.children, (g i c).Perm (g' i c)) : (n.collect g).Perm (n.collect g') :=
  List.Perm.flatMap_left _ fun ⟨c, i⟩ hc => h i c (List.fst_mem_of_mem_zipIdx hc)

theorem flatMap_zipIdx_fst (cs : List Node) (k : Nat) (g : Node → List α) :
    ((cs.zipIdx k).flatMap fun p => g p.1) = cs.flatMap g := by
  conv_rhs => rw [← List.zipIdx_map_fst k cs, List.flatMap_map]

/-! ## Parts -/

theorem flatMap_ite_isPart (cs : List Node) (g : Node → List α) :
    (cs.flatMap fun c => if c.isPart then g c else []) = (cs.filter isPart).flatMap g := by
  induction cs with
  | nil => rfl
  | cons c cs ih =>
    rw [List.flatMap_cons, ih, List.filter_cons]
    split <;> simp

theorem collect_rank (n : Node) (g : Nat → Node → List α) :
    (n.collect fun i c => if c.isPart then g (n.rank i) c else []) =
      n.parts.zipIdx.flatMap fun (c, j) => g j c := by
  have key (before after : List Node) :
      ((after.zipIdx before.length).flatMap fun p =>
        if p.1.isPart then g (((before ++ after).take p.2).countP isPart) p.1 else []) =
      ((after.filter isPart).zipIdx (before.countP isPart)).flatMap fun p => g p.2 p.1 := by
    induction after generalizing before with
    | nil => rfl
    | cons c cs ih =>
      have h := ih (before ++ [c])
      simp only [List.length_append, List.length_singleton, List.append_assoc,
        List.singleton_append, List.countP_append] at h
      rw [List.zipIdx_cons, List.flatMap_cons, h, List.filter_cons, List.take_left]
      by_cases hc : c.isPart <;> simp [hc, List.zipIdx_cons]
  exact key [] n.children

theorem collect_partsBut (n : Node) (f : Field) (g : Node → List α) :
    (n.collect fun i c => if c.isPart && n.fieldIndex? f != some i then g c else []) =
      (n.partsBut f).flatMap g := by
  have key (p : Node → Bool) (cs : List Node) (k : Nat) :
      ((cs.zipIdx k).flatMap fun q =>
        if q.1.isPart && (cs.findIdx? p).map (· + k) != some q.2 then g q.1 else []) =
      ((cs.eraseP p).filter isPart).flatMap g := by
    induction cs generalizing k with
    | nil => rfl
    | cons c cs ih =>
      rw [List.zipIdx_cons, List.flatMap_cons, List.findIdx?_cons]
      by_cases hc : p c
      · have hrest : ((cs.zipIdx (k + 1)).flatMap fun q =>
            if q.1.isPart && some k != some q.2 then g q.1 else []) =
            (cs.zipIdx (k + 1)).flatMap fun q => if q.1.isPart then g q.1 else [] := by
          refine List.flatMap_congr fun q hq => ?_
          have := (List.mem_zipIdx hq).1
          simp [show k ≠ q.2 by omega]
        simpa [hc, flatMap_zipIdx_fst, flatMap_ite_isPart] using
          hrest.trans (flatMap_zipIdx_fst cs (k + 1) fun c => if c.isPart then g c else [])
      · have hmap : ((cs.findIdx? p).map (· + 1)).map (· + k) =
            (cs.findIdx? p).map (· + (k + 1)) := by
          simp [Nat.add_comm, Nat.add_left_comm, Function.comp_def]
        rw [List.eraseP_cons_of_neg hc, List.filter_cons]
        simp only [hc, Bool.false_eq_true, if_false, hmap, ih (k + 1)]
        have hk : (cs.findIdx? p).map (· + (k + 1)) ≠ some k := by
          cases cs.findIdx? p with
          | none => simp
          | some j => simp; omega
        split <;> simp_all
  simpa [collect, partsBut, fieldIndex?] using key (·.label.field == some f) n.children 0

/-! ## Fields -/

/-- Only the nodes at the given places count. -/
theorem flatMap_zipIdx_at (cs : List Node) {g : Nat → Node → List α} {is : List Nat}
    (hincreasing : is.Pairwise (· < ·)) (hg : ∀ i ∉ is, ∀ c, g i c = []) :
    (cs.zipIdx.flatMap fun p => g p.2 p.1) =
      is.flatMap fun i => cs[i]?.toList.flatMap (g i) := by
  have key (cs : List Node) (k : Nat) (is : List Nat) (hk : ∀ i ∈ is, k ≤ i)
      (hincreasing : is.Pairwise (· < ·)) (hg : ∀ i, k ≤ i → i ∉ is → ∀ c, g i c = []) :
      ((cs.zipIdx k).flatMap fun p => g p.2 p.1) =
        is.flatMap fun i => cs[i - k]?.toList.flatMap (g i) := by
    induction cs generalizing k is with
    | nil => simp
    | cons c cs ih =>
      rw [List.zipIdx_cons, List.flatMap_cons]
      have hshift : ∀ i, k < i → (c :: cs)[i - k]? = cs[i - (k + 1)]? := by
        intro i hi
        rw [show i - k = (i - (k + 1)) + 1 by omega, List.getElem?_cons_succ]
      by_cases hmem : k ∈ is
      · obtain ⟨js, rfl⟩ : ∃ js, is = k :: js := by
          cases is with
          | nil => cases hmem
          | cons i js =>
            have := hk i (by simp)
            rcases List.mem_cons.1 hmem with rfl | hmem
            · exact ⟨js, rfl⟩
            · have := (List.pairwise_cons.1 hincreasing).1 k hmem
              omega
        obtain ⟨hlt, hincreasing⟩ := List.pairwise_cons.1 hincreasing
        rw [ih (k + 1) js hlt hincreasing]
        · rw [List.flatMap_cons, Nat.sub_self]
          refine congrArg₂ _ (by simp) (List.flatMap_congr fun i hi => ?_)
          rw [hshift i (hlt i hi)]
        · intro i hi hmem
          exact hg i (by omega) (by simp [hmem]; omega)
      · have hlt : ∀ i ∈ is, k + 1 ≤ i := by
          intro i hi
          have := hk i hi
          have : i ≠ k := fun h => hmem (h ▸ hi)
          omega
        rw [hg k (Nat.le_refl k) hmem c, List.nil_append, ih (k + 1) is hlt hincreasing]
        · refine List.flatMap_congr fun i hi => ?_
          rw [hshift i (hlt i hi)]
        · intro i hi hmem
          exact hg i (by omega) hmem
  exact key cs 0 is (by simp) hincreasing (fun i _ => hg i)

theorem collect_at_perm {n : Node} {g : Nat → Node → List α} {is : List Nat} (hnodup : is.Nodup)
    (hg : ∀ i ∉ is, ∀ c, g i c = []) :
    (n.collect g).Perm (is.flatMap fun i => n.children[i]?.toList.flatMap (g i)) := by
  have hperm := is.mergeSort_perm (· ≤ ·)
  have hle : (is.mergeSort (· ≤ ·)).Pairwise (· ≤ ·) := by
    simpa using @List.pairwise_mergeSort Nat (fun i j => decide (i ≤ j))
      (by simpa using fun _ _ _ => Nat.le_trans) (by simp [Nat.le_total]) is
  have hlt : (is.mergeSort (· ≤ ·)).Pairwise (· < ·) :=
    (hle.and (hperm.nodup_iff.2 hnodup)).imp fun h => Nat.lt_of_le_of_ne h.1 h.2
  have hat := flatMap_zipIdx_at n.children hlt fun i hi => hg i fun h => hi (hperm.mem_iff.2 h)
  rw [collect, hat]
  exact hperm.flatMap_right _

theorem eq_of_fieldIndex? {n : Node} {f f' : Field} {i : Nat} (h : n.fieldIndex? f = some i)
    (h' : n.fieldIndex? f' = some i) : f = f' := by
  obtain ⟨hi, hf, -⟩ := List.findIdx?_eq_some_iff_getElem.1 h
  obtain ⟨_, hf', -⟩ := List.findIdx?_eq_some_iff_getElem.1 h'
  simp only [beq_iff_eq] at hf hf'
  exact Option.some.inj (hf.symm.trans hf')

theorem inField_eq (n : Node) (f : Field) :
    n.inField f = (n.fieldIndex? f).toList.flatMap fun i => n.children[i]?.toList := by
  unfold inField child? fieldIndex?
  induction n.children with
  | nil => rfl
  | cons c cs ih =>
    rw [List.find?_cons, List.findIdx?_cons]
    cases hc : c.label.field == some f with
    | true => simp
    | false =>
      simp only [ih, Bool.false_eq_true, if_false]
      cases cs.findIdx? _ <;> simp

/-- The first child in `f` stands before the first child in `f'`. -/
def FieldBefore (n : Node) (f f' : Field) : Prop :=
  ∀ i ∈ n.fieldIndex? f, ∀ j ∈ n.fieldIndex? f', i < j

instance (n : Node) (f f' : Field) : Decidable (n.FieldBefore f f') :=
  inferInstanceAs (Decidable (∀ i ∈ n.fieldIndex? f, ∀ j ∈ n.fieldIndex? f', i < j))

/-- The fields that are read one after the other stand in this order. -/
structure FieldsInOrder (n : Node) : Prop where
  condition : [Field.condition, .consequence, .alternative].Pairwise n.FieldBefore
  body : [Field.body, .handler, .finalizer].Pairwise n.FieldBefore

section Table

variable (n : Node) (table : List (Field × (Node → List α)))

/-- What a table says about the first child in each of its fields. -/
def byField (i : Nat) (c : Node) : List α :=
  ((table.find? fun p => n.fieldIndex? p.1 == some i).map (·.2 c)).getD []

variable {n table}

theorem byField_of_mem (hnodup : (table.map (·.1)).Nodup) {p : Field × (Node → List α)}
    (hp : p ∈ table) {i : Nat} (hi : n.fieldIndex? p.1 = some i) (c : Node) :
    n.byField table i c = p.2 c := by
  obtain ⟨q, hq⟩ : ∃ q, table.find? (fun q => n.fieldIndex? q.1 == some i) = some q := by
    rw [← Option.isSome_iff_exists, List.find?_isSome]
    exact ⟨p, hp, by simp [hi]⟩
  have hqi := List.find?_some hq
  have hfield : q.1 = p.1 := eq_of_fieldIndex? (by simpa using hqi) hi
  have : q = p := List.inj_on_of_nodup_map hnodup (List.mem_of_find?_eq_some hq) hp hfield
  simp [byField, hq, this]

theorem flatMap_byField (hnodup : (table.map (·.1)).Nodup) :
    ((table.filterMap fun p => n.fieldIndex? p.1).flatMap fun i =>
      n.children[i]?.toList.flatMap (n.byField table i)) =
      table.flatMap fun p => (n.inField p.1).flatMap p.2 := by
  rw [List.filterMap_eq_flatMap_toList, List.flatMap_assoc]
  refine List.flatMap_congr fun p hp => ?_
  rw [inField_eq, List.flatMap_assoc]
  refine List.flatMap_congr fun i hi => List.flatMap_congr fun c _ => ?_
  exact byField_of_mem hnodup hp (Option.mem_toList.1 hi) c

theorem byField_eq_nil {i : Nat} (h : i ∉ table.filterMap fun p => n.fieldIndex? p.1) (c : Node) :
    n.byField table i c = [] := by
  have hfind : table.find? (fun p => n.fieldIndex? p.1 == some i) = none := by
    simp only [List.find?_eq_none, beq_iff_eq]
    exact fun p hp hi => h (List.mem_filterMap.2 ⟨p, hp, hi⟩)
  simp [byField, hfind]

theorem collect_byField_perm (hnodup : (table.map (·.1)).Nodup) :
    (n.collect (n.byField table)).Perm (table.flatMap fun p => (n.inField p.1).flatMap p.2) := by
  rw [← flatMap_byField hnodup]
  refine collect_at_perm (List.pairwise_filterMap.2 ?_) fun i hi => byField_eq_nil hi
  refine (List.pairwise_map.1 hnodup).imp ?_
  rintro p q hne i hi j hj rfl
  exact hne (eq_of_fieldIndex? hi hj)

theorem collect_byField (hnodup : (table.map (·.1)).Nodup)
    (horder : (table.map (·.1)).Pairwise n.FieldBefore) :
    n.collect (n.byField table) = table.flatMap fun p => (n.inField p.1).flatMap p.2 := by
  rw [← flatMap_byField hnodup]
  refine flatMap_zipIdx_at n.children (List.pairwise_filterMap.2 ?_) fun i hi => byField_eq_nil hi
  exact (List.pairwise_map.1 horder).imp fun h i hi j hj => h i hi j hj

end Table

end Node

end FlowShape
