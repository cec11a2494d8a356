import FlowShape.Entry.Discovery
import FlowShape.Proofs.Scope.Declaration
import FlowShape.Proofs.Tree.Moves

/-!
# The variable that a call is the value of

The name of a definition is found by going up: from the call through the wrappers around it to the
declarator that they are the value of. Most other questions about a value go down, from the value
through its wrappers to what is inside. Where the wrappers lead with their operand the two ways are
inverse to each other, at any height: a call is named by a declarator just if the value of the
declarator unwraps to that very call.
-/

namespace FlowShape

/-- What the grammar says about wrappers: a call or a wrapper in another wrapper is the operand of
that one, which is its first part. -/
def Node.LeadsWithOperand (n : Node) : Prop :=
  n.kind.isTransparent → ∀ p ∈ n.children.zipIdx,
    p.1.kind = .callExpression ∨ p.1.kind.isTransparent → n.children.findIdx? isPart = some p.2

instance (n : Node) : Decidable n.LeadsWithOperand :=
  inferInstanceAs (Decidable (n.kind.isTransparent → ∀ p ∈ n.children.zipIdx,
    p.1.kind = .callExpression ∨ p.1.kind.isTransparent →
      n.children.findIdx? Node.isPart = some p.2))

namespace Site

variable {s d : Site} {tree : Node}

/-- The value of a declarator unwraps to a site. -/
structure IsValueOf (s d : Site) : Prop where
  declarator : d.node.kind = .variableDeclarator
  value : ∃ v, d.child? .value = some v ∧ v.unwrap = s

/-- What stands right around the wrappers around a site. -/
def aroundWrappers? : List Frame → Option Site
  | [] => none
  | frame :: above =>
    if frame.parent.kind.isTransparent then aroundWrappers? above else some ⟨frame.parent, above⟩

/-- Going down through wrappers does not change what stands around them. -/
theorem aroundWrappers?_unwrap (s : Site) :
    aroundWrappers? s.unwrap.above = aroundWrappers? s.above := by
  fun_induction unwrap s with
  | case1 s ht inner h ih =>
    obtain ⟨i, c, -, -, rfl⟩ := findChild?_eq_some_iff.1 h
    rw [ih, aroundWrappers?, if_pos ht]
  | case2 => rfl
  | case3 => rfl

theorem IsValueOf.aroundWrappers? (h : s.IsValueOf d) :
    Site.aroundWrappers? s.above = some d := by
  obtain ⟨v, hv, rfl⟩ := h.value
  obtain ⟨i, c, -, -, rfl⟩ := findChild?_eq_some_iff.1 hv
  have hwrapper : ¬d.node.kind.isTransparent := by simp [h.declarator, Kind.isTransparent]
  rw [aroundWrappers?_unwrap, Site.aroundWrappers?, if_neg hwrapper]

/-- A site is the value of one declarator at most. -/
theorem IsValueOf.unique {d' : Site} (h : s.IsValueOf d) (h' : s.IsValueOf d') : d = d' :=
  Option.some.inj (h.aroundWrappers?.symm.trans h'.aroundWrappers?)

/-- The step up from the operand of a wrapper is undone by the step down. -/
theorem firstPart?_of_leadsWithOperand {c : Node} {frame : Frame} {above : List Frame}
    (hget : frame.parent.children[frame.index]? = some c) (ht : frame.parent.kind.isTransparent)
    (hoperand : frame.parent.LeadsWithOperand)
    (hc : c.kind = .callExpression ∨ c.kind.isTransparent) :
    firstPart? ⟨frame.parent, above⟩ = some ⟨c, frame :: above⟩ := by
  have hindex := hoperand ht (c, frame.index) (List.mem_zipIdx_iff_getElem?.2 hget) hc
  exact findChild?_eq_some_iff.2 ⟨_, c, hindex, hget, rfl⟩

end Site

namespace Source

variable {src : Source} {tree : Node} {name : String} {s d : Site}

/-- Going down through wrappers does not change the name that is found. -/
theorem declaredName?_unwrap (src : Source) (s : Site) :
    src.declaredName? s.unwrap = src.declaredName? s := by
  fun_induction Site.unwrap s with
  | case1 s ht inner h ih =>
    obtain ⟨i, c, -, -, rfl⟩ := Site.findChild?_eq_some_iff.1 h
    rw [ih, declaredName?, declaredNameAbove?, if_pos ht, declaredName?]
  | case2 => rfl
  | case3 => rfl

/-- A declarator has a plain name. -/
def NamesDeclarator (src : Source) (name : String) (d : Node) : Prop :=
  ∃ n, d.child? .name = some n ∧ n.kind = .identifier ∧ src.text n = name

theorem namesDeclarator_iff {d : Node} : src.NamesDeclarator name d ↔
    ((d.child? .name).filter (·.kind == .identifier)).map src.text = some name := by
  simp only [NamesDeclarator, Option.map_eq_some_iff, Option.filter_eq_some_iff, beq_iff_eq,
    and_assoc]

theorem declaredName?_of_isValueOf (h : s.IsValueOf d) (hname : src.NamesDeclarator name d.node) :
    src.declaredName? s = some name := by
  obtain ⟨v, hv, rfl⟩ := h.value
  obtain ⟨i, c, hi, -, rfl⟩ := Site.findChild?_eq_some_iff.1 hv
  have hfield : Frame.isField ⟨d.node, i⟩ .value := by simpa [Frame.isField] using hi
  have hwrapper : ¬d.node.kind.isTransparent := by simp [h.declarator, Kind.isTransparent]
  rw [declaredName?_unwrap, declaredName?, declaredNameAbove?, if_neg hwrapper,
    if_pos ⟨h.declarator, hfield⟩]
  exact namesDeclarator_iff.1 hname

/-- A name is found only at a declarator, and the way up to it is undone by unwrapping its value. -/
theorem exists_of_declaredName? (hs : Site.Below tree s)
    (hgrammar : ∀ frame ∈ s.above, frame.parent.LeadsWithOperand)
    (hkind : s.node.kind = .callExpression ∨ s.node.kind.isTransparent)
    (h : src.declaredName? s = some name) :
    ∃ d, Site.Below tree d ∧ s.unwrap.IsValueOf d ∧ src.NamesDeclarator name d.node := by
  obtain ⟨c, above⟩ := s
  induction above generalizing c with
  | nil => cases h
  | cons frame above ih =>
    obtain ⟨hparent, hget⟩ := hs.of_cons
    obtain ⟨hoperand, hgrammar⟩ := List.forall_mem_cons.1 hgrammar
    rw [declaredName?, declaredNameAbove?] at h
    split at h
    · next ht =>
      have hdown : Site.firstPart? ⟨frame.parent, above⟩ = some ⟨c, frame :: above⟩ :=
        Site.firstPart?_of_leadsWithOperand hget ht hoperand hkind
      rw [← Site.unwrap_of_firstPart? ht hdown]
      exact ih frame.parent hparent hgrammar (.inr ht) h
    · split at h
      · next hfield =>
        have hindex : frame.parent.fieldIndex? .value = some frame.index :=
          beq_iff_eq.1 hfield.2
        have hvalue : Site.child? ⟨frame.parent, above⟩ .value = some ⟨c, frame :: above⟩ :=
          Site.findChild?_eq_some_iff.2 ⟨_, c, hindex, hget, rfl⟩
        exact ⟨⟨frame.parent, above⟩, hparent, ⟨hfield.1, _, hvalue, rfl⟩,
          namesDeclarator_iff.2 h⟩
      · cases h

/-- A call has the name of a variable just if the value of a declarator with that name unwraps to
the call, and there is one such declarator at most. -/
theorem calls_are_named_by_their_declarators (src : Source) {tree : Node} {call : Site}
    (hcall : Site.Below tree call) (hkind : call.node.kind = .callExpression)
    (hgrammar : ∀ frame ∈ call.above, frame.parent.LeadsWithOperand) :
    (∀ name, src.declaredName? call = some name ↔
      ∃ d, Site.Below tree d ∧ call.IsValueOf d ∧ src.NamesDeclarator name d.node) ∧
    (∀ d, call.IsValueOf d → (d.node.child? .value).map Node.unwrap = some call.node) ∧
    ∀ d d' name name', call.IsValueOf d → src.NamesDeclarator name d.node →
      call.IsValueOf d' → src.NamesDeclarator name' d'.node → d = d' ∧ name = name' := by
  have hbare : call.unwrap = call := by
    apply Site.unwrap_of_not_transparent
    simp [hkind, Kind.isTransparent]
  refine ⟨fun name => ⟨fun h => ?_, ?_⟩, fun d h => ?_, fun d d' name name' h hname h' hname' => ?_⟩
  · have hfound := exists_of_declaredName? hcall hgrammar (.inl hkind) h
    rwa [hbare] at hfound
  · rintro ⟨d, -, hvalue, hname⟩
    exact declaredName?_of_isValueOf hvalue hname
  · obtain ⟨v, hv, rfl⟩ := h.value
    rw [← Site.map_node_child?, hv, Site.node_unwrap]
    rfl
  · have hsame := (declaredName?_of_isValueOf h hname).symm.trans
      (declaredName?_of_isValueOf h' hname')
    exact ⟨h.unique h', Option.some.inj hsame⟩

end Source

namespace Sample

def towerSource : Source := .ofString "sample.ts" "const a = (/**/ await (f() as T)!) satisfies X;"

def towerTree : Node :=
  part .program 0 47 [
    part .lexicalDeclaration 0 47 [
      roleToken .kind "const" 0,
      part .variableDeclarator 6 46 [
        role .name .identifier 6 7 [], token "=" 8,
        role .value .satisfiesExpression 10 46 [
          part .parenthesizedExpression 10 34 [
            token "(" 10, part .comment 11 15 [],
            part .awaitExpression 16 33 [
              token "await" 16,
              part .nonNullExpression 22 33 [
                part .parenthesizedExpression 22 32 [
                  token "(" 22,
                  part .asExpression 23 31 [
                    emptyCall 23, token "as" 27, part (.other "type_identifier") 30 31 []],
                  token ")" 31],
                token "!" 32]],
            token ")" 33],
          token "satisfies" 35, part (.other "type_identifier") 45 46 []]],
      token ";" 46]]

def towerCall : Site := follow (.root towerTree) [0, 1, 2, 0, 2, 1, 0, 1, 0]

end Sample

namespace Source

/-- The call in `const a = (/**/ await (f() as T)!) satisfies X;` has the name `a`, which is that of
the declarator around all five wrappers. -/
theorem calls_are_named_by_their_declarators_tower :
    Site.Below Sample.towerTree Sample.towerCall ∧
    Sample.towerCall.node.kind = .callExpression ∧
    (∀ frame ∈ Sample.towerCall.above, frame.parent.LeadsWithOperand) ∧
    Sample.towerSource.declaredName? Sample.towerCall = some "a" ∧
    ∃ d, Site.Below Sample.towerTree d ∧ Sample.towerCall.IsValueOf d ∧
      Sample.towerSource.NamesDeclarator "a" d.node := by
  have hgrammar : ∀ frame ∈ Sample.towerCall.above, frame.parent.LeadsWithOperand := by decide
  have hcall : Site.Below Sample.towerTree Sample.towerCall := below_follow .root _
  have hname : Sample.towerSource.declaredName? Sample.towerCall = some "a" := by decide +kernel
  obtain ⟨hnamed, -, -⟩ :=
    calls_are_named_by_their_declarators Sample.towerSource hcall rfl hgrammar
  exact ⟨hcall, rfl, hgrammar, hname, (hnamed "a").1 hname⟩

end Source

end FlowShape
