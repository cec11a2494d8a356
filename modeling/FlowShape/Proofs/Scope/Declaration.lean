import FlowShape.Proofs.Scope.Binding
import FlowShape.Proofs.Tree.Builder
import FlowShape.Proofs.Tree.Preorder

/-!
# Declared names

Where the language declares a name, stated without the search for a declaration: the name stands in
a binding position of a pattern, a statement declares it, and one of the nodes around a site holds
the declaration in one of several forms. The scopes around a site bind a name just if it is declared
there in a form that is heeded. Four forms are not: a statement in another case of a `switch`, a
`var` in the head of a loop that has ended, a `var` in the static block of a class, and the name of
a generator inside the generator.
-/

namespace FlowShape

/-- The forms in which a node around a site declares a name for it. -/
inductive DeclarationForm where
  | statement
  | ownCase
  | otherCase
  | bodyVariable
  | loopVariable
  | staticVariable
  | parameter
  | functionName
  | generatorName
  | loopHead
  | caught
  deriving DecidableEq

/-- The forms that the scopes around a site are asked for. -/
def DeclarationForm.isHeeded : DeclarationForm → Bool
  | otherCase | loopVariable | staticVariable | generatorName => false
  | _ => true

namespace Node

/-- The cases of a `switch`, which share one block. -/
def isCase (n : Node) : Bool := n.kind == .switchCase || n.kind == .switchDefault

/-- The code in a class that runs when the class is made. It has variables of its own. -/
def isStaticBlock (n : Node) : Bool := n.kind == .other "class_static_block"

/-- Where the variables of a node are declared, at any depth: in the program, or in the body of a
function or of a static block. -/
def variableRoot? (n : Node) : Option Node :=
  if n.kind = .program then some n
  else if n.isFunctionScope || n.isStaticBlock then n.child? .body
  else none

theorem isStaticBlock_of_program {n : Node} (h : n.kind = .program) : n.isStaticBlock = false := by
  simp [isStaticBlock, h]

theorem isStaticBlock_of_isFunctionScope {n : Node} (h : n.isFunctionScope) :
    n.isStaticBlock = false := by
  rw [isStaticBlock, beq_eq_false_iff_ne]
  intro hkind
  simp [isFunctionScope, hkind, Kind.isFunctionScope, Kind.isFunctionLiteral] at h

theorem variableRoot?_eq_some_iff {n body : Node} (h : n.isStaticBlock = false) :
    n.variableRoot? = some body ↔
      n.kind = .program ∧ n = body ∨ n.isFunctionScope ∧ n.child? .body = some body := by
  by_cases hkind : n.kind = .program
  · simp [variableRoot?, hkind, isFunctionScope, Kind.isFunctionScope, Kind.isFunctionLiteral]
  · simp [variableRoot?, hkind, h]

end Node

namespace Source

variable {src : Source} {name : String}

/-! ## Patterns -/

/-- A name stands in a binding position of a pattern. -/
inductive Binds (src : Source) (name : String) : Node → Prop
  | identifier {p : Node} : p.kind = .identifier → src.text p = name → Binds src name p
  | shorthand {p : Node} : p.kind = .shorthandPropertyIdentifierPattern → src.text p = name →
      Binds src name p
  | property {p c : Node} : p.kind = .pairPattern → p.child? .value = some c →
      Binds src name c → Binds src name p
  | withDefault {p c : Node} : p.kind = .assignmentPattern ∨ p.kind = .objectAssignmentPattern →
      p.child? .left = some c → Binds src name c → Binds src name p
  | element {p c : Node} : p.kind ∈ [.objectPattern, .arrayPattern, .restPattern] → c ∈ p.parts →
      Binds src name c → Binds src name p
  | parameter {p c : Node} : p.kind = .requiredParameter ∨ p.kind = .optionalParameter →
      p.child? .pattern = some c → Binds src name c → Binds src name p
  | parameters {p c : Node} : p.kind = .formalParameters → c ∈ p.parts →
      Binds src name c → Binds src name p
  | declarator {p c : Node} : p.kind = .variableDeclarator → p.child? .name = some c →
      Binds src name c → Binds src name p

theorem Binds.of_mem {p c : Node} (hc : c ∈ p.innerPatterns) (h : src.Binds name c) :
    src.Binds name p := by
  unfold Node.innerPatterns at hc
  split at hc
  · next hkind => exact .property hkind (Option.mem_toList.1 hc) h
  · next hkind => exact .withDefault (.inr hkind) (Option.mem_toList.1 hc) h
  · next hkind => exact .withDefault (.inl hkind) (Option.mem_toList.1 hc) h
  · next hkind => exact .parameter (.inl hkind) (Option.mem_toList.1 hc) h
  · next hkind => exact .parameter (.inr hkind) (Option.mem_toList.1 hc) h
  · next hkind => exact .declarator hkind (Option.mem_toList.1 hc) h
  · next hkind => exact .element (by simp [hkind]) hc h
  · next hkind => exact .element (by simp [hkind]) hc h
  · next hkind => exact .element (by simp [hkind]) hc h
  · next hkind => exact .parameters hkind hc h
  · cases hc

theorem patternBinds_iff {p : Node} : src.patternBinds name p ↔ src.Binds name p := by
  constructor
  · intro h
    fun_induction patternBinds src name p with
    | case1 p ih =>
      rw [Bool.or_eq_true, Bool.and_eq_true, beq_iff_eq, List.any_eq_true] at h
      rcases h with ⟨hname, htext⟩ | ⟨⟨c, hc⟩, -, h⟩
      · simp only [Node.isBindingName, Bool.or_eq_true, beq_iff_eq] at hname
        rcases hname with hkind | hkind
        · exact .identifier hkind htext
        · exact .shorthand hkind htext
      · exact (ih c hc h).of_mem hc
  · intro h
    induction h with
    | identifier hkind htext =>
      exact patternBinds_of_isBindingName (by simp [Node.isBindingName, hkind]) htext
    | shorthand hkind htext =>
      exact patternBinds_of_isBindingName (by simp [Node.isBindingName, hkind]) htext
    | property hkind hc _ ih | declarator hkind hc _ ih =>
      exact patternBinds_of_mem (by simp [Node.innerPatterns, hkind, hc]) ih
    | parameters hkind hc _ ih =>
      exact patternBinds_of_mem (by simpa [Node.innerPatterns, hkind] using hc) ih
    | withDefault hkind hc _ ih | parameter hkind hc _ ih =>
      refine patternBinds_of_mem ?_ ih
      rcases hkind with hkind | hkind <;> simp [Node.innerPatterns, hkind, hc]
    | element hkind hc _ ih =>
      refine patternBinds_of_mem ?_ ih
      simp only [List.mem_cons, List.not_mem_nil, or_false] at hkind
      rcases hkind with hkind | hkind | hkind <;> simpa [Node.innerPatterns, hkind] using hc

/-- A declarator binds the names in the pattern on its left. -/
theorem binds_declarator_iff {d : Node} (hkind : d.kind = .variableDeclarator) :
    src.Binds name d ↔ ∃ p, d.child? .name = some p ∧ src.Binds name p := by
  constructor
  · intro h
    cases h with
    | declarator _ hp h => exact ⟨_, hp, h⟩
    | _ => simp_all
  · rintro ⟨p, hp, h⟩
    exact .declarator hkind hp h

/-! ## Statements -/

/-- A statement declares a name in the block it stands in. -/
inductive Declares (src : Source) (name : String) : Node → Prop
  | binding {s d : Node} : s.kind = .lexicalDeclaration ∨ s.kind = .variableDeclaration →
      d ∈ s.parts → d.kind = .variableDeclarator → src.Binds name d → Declares src name s
  | definition {s n : Node} :
      s.kind ∈ [.functionDeclaration, .generatorFunctionDeclaration, .classDeclaration,
        .abstractClassDeclaration] →
      s.child? .name = some n → src.text n = name → Declares src name s
  | exported {s d : Node} : s.kind = .exportStatement → s.child? .declaration = some d →
      Declares src name d → Declares src name s

/-- A `let`, `const` or `var` declares what its declarators bind. -/
theorem declares_binding_iff {s : Node}
    (hkind : s.kind = .lexicalDeclaration ∨ s.kind = .variableDeclaration) :
    src.Declares name s ↔ ∃ d ∈ s.parts, d.kind = .variableDeclarator ∧ src.Binds name d := by
  constructor
  · intro h
    cases h with
    | binding _ hd hdeclarator h => exact ⟨_, hd, hdeclarator, h⟩
    | definition hdefinition => rcases hkind with hkind | hkind <;> simp [hkind] at hdefinition
    | exported hexported => rcases hkind with hkind | hkind <;> simp [hkind] at hexported
  · rintro ⟨d, hd, hdeclarator, h⟩
    exact .binding hkind hd hdeclarator h

theorem declarationBinds_iff {s : Node} :
    src.declarationBinds name s ↔
      ∃ d ∈ s.parts, d.kind = .variableDeclarator ∧ src.Binds name d := by
  simp [declarationBinds, patternBinds_iff]

theorem fieldIs_iff {n : Node} {f : Field} :
    src.fieldIs n f name ↔ ∃ c, n.child? f = some c ∧ src.text c = name := by
  simp [fieldIs, Option.any_eq_true]

theorem statementDeclares_iff {s : Node} :
    src.statementDeclares name s ↔ src.Declares name s := by
  constructor
  · intro h
    fun_induction statementDeclares src name s with
    | case1 s hkind | case2 s hkind =>
      obtain ⟨d, hd, hdeclarator, hbinds⟩ := declarationBinds_iff.1 h
      exact .binding (by simp [hkind]) hd hdeclarator hbinds
    | case3 s hkind | case4 s hkind | case5 s hkind | case6 s hkind =>
      obtain ⟨n, hn, htext⟩ := fieldIs_iff.1 h
      exact .definition (by simp [hkind]) hn htext
    | case7 s hkind d hd ih => exact .exported hkind hd (ih h)
    | case8 => cases h
    | case9 => cases h
  · intro h
    induction h with
    | binding hkind hd hdeclarator hbinds =>
      have h := declarationBinds_iff.2 ⟨_, hd, hdeclarator, hbinds⟩
      rw [statementDeclares]
      rcases hkind with hkind | hkind <;> simpa [hkind] using h
    | definition hkind hn htext =>
      have h := fieldIs_iff.2 ⟨_, hn, htext⟩
      rw [statementDeclares]
      simp only [List.mem_cons, List.not_mem_nil, or_false] at hkind
      rcases hkind with hkind | hkind | hkind | hkind <;> simpa [hkind] using h
    | exported hkind hd _ ih =>
      rw [statementDeclares]
      simp only [hkind]
      split <;> simp_all

/-- The search for variables finds what is reached from the nodes still to do, in whatever order it
comes to them. -/
theorem hoistedBindsAmong_iff {agenda : List Node} :
    src.hoistedBindsAmong name agenda ↔ ∃ n ∈ agenda, ∃ v,
      n.Reaches (fun n => !n.isFunctionScope && n.kind != .classExpression) v ∧
      v.kind = .variableDeclaration ∧ src.declarationBinds name v := by
  fun_induction hoistedBindsAmong src name agenda with
  | case1 => simp
  | case2 n rest ih =>
    rw [Bool.or_eq_true, ih, List.exists_mem_cons_iff]
    simp only [List.mem_append, List.mem_reverse, List.mem_filter, Node.reaches_iff (n := n)]
    grind

/-- A `var` in a body is one that declares the name and that the search for variables gets to. -/
theorem hoistedBinds_iff {body : Node} :
    src.hoistedBinds name body ↔ ∃ v,
      body.Reaches (fun n => !n.isFunctionScope && n.kind != .classExpression) v ∧
      v.kind = .variableDeclaration ∧ src.Declares name v := by
  have hdeclares (v : Node) (hkind : v.kind = .variableDeclaration) :
      src.declarationBinds name v ↔ src.Declares name v := by
    rw [declarationBinds_iff, declares_binding_iff (.inr hkind)]
  simp only [hoistedBinds, hoistedBindsAmong_iff, List.mem_singleton, exists_eq_left]
  grind

/-! ## Scopes -/

/-- A node around a site declares a name for it. The frame of the node says which of its children
the site is in. -/
inductive DeclaresIn (src : Source) (name : String) : DeclarationForm → Frame → Prop
  | statement {frame : Frame} {s : Node} :
      frame.parent.kind ∈ [.program, .statementBlock, .classBody] →
      s ∈ frame.parent.parts → src.Declares name s → DeclaresIn src name .statement frame
  | ownCase {frame : Frame} {s : Node} :
      frame.parent.isCase → s ∈ frame.parent.parts → src.Declares name s →
      DeclaresIn src name .ownCase frame
  | otherCase {frame : Frame} {i : Nat} {case s : Node} :
      frame.parent.kind = .other "switch_body" →
      frame.parent.children[i]? = some case → i ≠ frame.index → case.isCase →
      s ∈ case.parts → src.Declares name s → DeclaresIn src name .otherCase frame
  -- A class expression holds statements in its functions and its static blocks only, which have
  -- variables of their own.
  | bodyVariable {frame : Frame} {body v : Node} :
      frame.parent.isStaticBlock = false → frame.parent.variableRoot? = some body →
      body.Reaches (fun n => !n.isFunctionScope && n.kind != .classExpression) v →
      v.kind = .variableDeclaration → src.Declares name v → DeclaresIn src name .bodyVariable frame
  | loopVariable {frame : Frame} {body loop word p : Node} :
      frame.parent.variableRoot? = some body →
      body.Reaches (fun n => !n.isFunctionScope && !n.isStaticBlock) loop →
      loop.kind = .forInStatement → loop.child? .kind = some word → src.text word = "var" →
      loop.child? .left = some p → src.Binds name p → DeclaresIn src name .loopVariable frame
  | staticVariable {frame : Frame} {body v : Node} :
      frame.parent.isStaticBlock → frame.parent.variableRoot? = some body →
      body.Reaches (fun n => !n.isFunctionScope && !n.isStaticBlock) v →
      v.kind = .variableDeclaration → src.Declares name v →
      DeclaresIn src name .staticVariable frame
  | parameter {frame : Frame} {p : Node} :
      frame.parent.isFunctionScope →
      frame.parent.child? .parameter = some p ∨ frame.parent.child? .parameters = some p →
      src.Binds name p → DeclaresIn src name .parameter frame
  | functionName {frame : Frame} {n : Node} :
      frame.parent.kind = .functionExpression ∨ frame.parent.kind = .functionKeyword →
      frame.parent.child? .name = some n → src.text n = name →
      DeclaresIn src name .functionName frame
  | generatorName {frame : Frame} {n : Node} :
      frame.parent.kind = .generatorFunction →
      frame.parent.child? .name = some n → src.text n = name →
      DeclaresIn src name .generatorName frame
  | loopHead {frame : Frame} {s : Node} :
      frame.parent.kind = .forStatement → frame.parent.child? .initializer = some s →
      src.Declares name s → DeclaresIn src name .loopHead frame
  | iterationHead {frame : Frame} {p : Node} :
      frame.parent.kind = .forInStatement → (frame.parent.child? .kind).isSome →
      frame.parent.child? .left = some p → src.Binds name p → DeclaresIn src name .loopHead frame
  | caught {frame : Frame} {p : Node} :
      frame.parent.kind = .catchClause → frame.parent.child? .parameter = some p →
      src.Binds name p → DeclaresIn src name .caught frame

/-- A name is declared for a site by one of the nodes around it, up to the program. -/
def Declared (src : Source) (name : String) (form : DeclarationForm) (site : Site) : Prop :=
  ∃ inner frame outer, site.above = inner ++ frame :: outer ∧
    (∀ f ∈ inner, f.parent.kind ≠ .program) ∧ src.DeclaresIn name form frame

theorem functionBinds_iff {f : Node} :
    src.functionBinds name f ↔
      (∃ p, (f.child? .parameter = some p ∨ f.child? .parameters = some p) ∧ src.Binds name p) ∨
      ((f.kind = .functionExpression ∨ f.kind = .functionKeyword) ∧
        ∃ n, f.child? .name = some n ∧ src.text n = name) ∨
      ∃ body, f.child? .body = some body ∧ src.hoistedBinds name body := by
  simp only [functionBinds, Bool.or_eq_true, Bool.and_eq_true, Option.any_eq_true, fieldIs_iff,
    patternBinds_iff, beq_iff_eq]
  grind

/-- What a function declares for the sites in it, it declares in a form that is heeded. -/
theorem exists_of_functionBinds {frame : Frame} (hf : frame.parent.isFunctionScope)
    (h : src.functionBinds name frame.parent) :
    ∃ form : DeclarationForm, form.isHeeded ∧ src.DeclaresIn name form frame := by
  rcases functionBinds_iff.1 h with ⟨p, hp, hbinds⟩ | ⟨hkind, n, hn, htext⟩ | ⟨body, hbody, h⟩
  · exact ⟨.parameter, rfl, .parameter hf hp hbinds⟩
  · exact ⟨.functionName, rfl, .functionName hkind hn htext⟩
  · obtain ⟨v, hv, hkind, hdeclares⟩ := hoistedBinds_iff.1 h
    have hstatic := Node.isStaticBlock_of_isFunctionScope hf
    have hroot := (Node.variableRoot?_eq_some_iff hstatic).2 (.inr ⟨hf, hbody⟩)
    exact ⟨.bodyVariable, rfl, .bodyVariable hstatic hroot hv hkind hdeclares⟩

theorem exists_of_scopeBinds {frame : Frame} (h : src.scopeBinds name frame.parent) :
    ∃ form : DeclarationForm, form.isHeeded ∧ src.DeclaresIn name form frame := by
  unfold scopeBinds at h
  split at h <;>
    simp only [Bool.or_eq_true, Bool.and_eq_true, List.any_eq_true, Option.any_eq_true,
      statementDeclares_iff, patternBinds_iff] at h
  · next hkind =>
    rcases h with ⟨s, hs, h⟩ | h
    · exact ⟨.statement, rfl, .statement (by simp [hkind]) hs h⟩
    · obtain ⟨v, hv, hvariable, hdeclares⟩ := hoistedBinds_iff.1 h
      have hstatic := Node.isStaticBlock_of_program hkind
      have hroot := (Node.variableRoot?_eq_some_iff hstatic).2 (.inl ⟨hkind, rfl⟩)
      exact ⟨.bodyVariable, rfl, .bodyVariable hstatic hroot hv hvariable hdeclares⟩
  · next hkind =>
    obtain ⟨s, hs, h⟩ := h
    exact ⟨.statement, rfl, .statement (by simp [hkind]) hs h⟩
  · next hkind =>
    obtain ⟨s, hs, h⟩ := h
    exact ⟨.ownCase, rfl, .ownCase (by simp [Node.isCase, hkind]) hs h⟩
  · next hkind =>
    obtain ⟨s, hs, h⟩ := h
    exact ⟨.ownCase, rfl, .ownCase (by simp [Node.isCase, hkind]) hs h⟩
  · next hkind =>
    obtain ⟨s, hs, h⟩ := h
    exact ⟨.statement, rfl, .statement (by simp [hkind]) hs h⟩
  · next hkind =>
    obtain ⟨s, hs, h⟩ := h
    exact ⟨.loopHead, rfl, .loopHead hkind hs h⟩
  · next hkind =>
    obtain ⟨hword, p, hp, h⟩ := h
    exact ⟨.loopHead, rfl, .iterationHead hkind hword hp h⟩
  · next hkind =>
    obtain ⟨p, hp, h⟩ := h
    exact ⟨.caught, rfl, .caught hkind hp h⟩
  · exact exists_of_functionBinds h.1 h.2

theorem scopeBinds_of_declaresIn {frame : Frame} {form : DeclarationForm} (hform : form.isHeeded)
    (h : src.DeclaresIn name form frame) : src.scopeBinds name frame.parent := by
  cases h with
  | @statement _ s hkind hs h =>
    have hany : frame.parent.parts.any (src.statementDeclares name) :=
      List.any_eq_true.2 ⟨s, hs, statementDeclares_iff.2 h⟩
    simp only [List.mem_cons, List.not_mem_nil, or_false] at hkind
    rcases hkind with hkind | hkind | hkind <;> simp [scopeBinds, hkind, hany]
  | @ownCase _ s hcase hs h =>
    have hany : frame.parent.parts.any (src.statementDeclares name) :=
      List.any_eq_true.2 ⟨s, hs, statementDeclares_iff.2 h⟩
    simp only [Node.isCase, Bool.or_eq_true, beq_iff_eq] at hcase
    rcases hcase with hkind | hkind <;> simp [scopeBinds, hkind, hany]
  | @bodyVariable _ body v hstatic hroot hv hvariable h =>
    have hhoisted : src.hoistedBinds name body := hoistedBinds_iff.2 ⟨v, hv, hvariable, h⟩
    rcases (Node.variableRoot?_eq_some_iff hstatic).1 hroot with ⟨hkind, rfl⟩ | ⟨hf, hbody⟩
    · simp [scopeBinds, hkind, hhoisted]
    · rw [scopeBinds_of_isFunctionScope hf, functionBinds_iff]
      exact .inr (.inr ⟨body, hbody, hhoisted⟩)
  | @parameter _ p hf hp h =>
    rw [scopeBinds_of_isFunctionScope hf, functionBinds_iff]
    exact .inl ⟨p, hp, h⟩
  | @functionName _ n hkind hn htext =>
    have hf : frame.parent.isFunctionScope := by
      rcases hkind with hkind | hkind <;>
        simp [Node.isFunctionScope, hkind, Kind.isFunctionScope, Kind.isFunctionLiteral]
    rw [scopeBinds_of_isFunctionScope hf, functionBinds_iff]
    exact .inr (.inl ⟨hkind, n, hn, htext⟩)
  | loopHead hkind hs h => simp [scopeBinds, hkind, hs, statementDeclares_iff, h]
  | iterationHead hkind hword hp h => simp [scopeBinds, hkind, hword, hp, patternBinds_iff, h]
  | caught hkind hp h => simp [scopeBinds, hkind, hp, patternBinds_iff, h]
  | otherCase | loopVariable | staticVariable | generatorName => cases hform

/-- The search goes up through the nodes around a site and ends at the program. -/
theorem boundAbove_iff {frames : List Frame} :
    src.boundAbove name frames ↔ ∃ inner frame outer, frames = inner ++ frame :: outer ∧
      (∀ f ∈ inner, f.parent.kind ≠ .program) ∧ src.scopeBinds name frame.parent := by
  induction frames with
  | nil => simp [boundAbove]
  | cons first above ih =>
    rw [boundAbove, Bool.or_eq_true, Bool.and_eq_true, bne_iff_ne, ih]
    constructor
    · rintro (h | ⟨hfirst, inner, frame, outer, rfl, hinner, h⟩)
      · exact ⟨[], first, above, rfl, by simp, h⟩
      · exact ⟨first :: inner, frame, outer, rfl, List.forall_mem_cons.2 ⟨hfirst, hinner⟩, h⟩
    · rintro ⟨inner, frame, outer, heq, hinner, h⟩
      cases inner with
      | nil =>
        obtain ⟨rfl, rfl⟩ := List.cons.inj heq
        exact .inl h
      | cons f inner =>
        obtain ⟨rfl, rfl⟩ := List.cons.inj heq
        obtain ⟨hfirst, hinner⟩ := List.forall_mem_cons.1 hinner
        exact .inr ⟨hfirst, inner, frame, outer, rfl, hinner, h⟩

/-- The scopes around a site bind a name just if it is declared there in a form that is heeded. -/
theorem names_are_bound_in_heeded_forms (src : Source) (name : String) (site : Site) :
    src.isBound name site ↔
      ∃ form : DeclarationForm, form.isHeeded ∧ src.Declared name form site := by
  rw [isBound, boundAbove_iff]
  constructor
  · rintro ⟨inner, frame, outer, habove, hinner, h⟩
    obtain ⟨form, hform, h⟩ := exists_of_scopeBinds h
    exact ⟨form, hform, inner, frame, outer, habove, hinner, h⟩
  · rintro ⟨form, hform, inner, frame, outer, habove, hinner, h⟩
    exact ⟨inner, frame, outer, habove, hinner, scopeBinds_of_declaresIn hform h⟩

end Source

namespace Sample

def hiddenSource : Source :=
  .ofString "sample.ts" ("\n".intercalate
    ["for (var i of xs) \x7b\x7d",
     "k = class \x7b static \x7b if (x) \x7b var v; \x7d",
     "g = function* run() \x7b switch (x) \x7b",
     "case 1: let a; case 2: f; \x7d \x7d; \x7d \x7d;",
     ""])

def hiddenLoop : Node :=
  part .forInStatement 0 20 [
    token "for" 0, token "(" 4, roleToken .kind "var" 5, role .left .identifier 9 10 [],
    roleToken .operator "of" 11, role .right .identifier 14 16 [], token ")" 16,
    role .body .statementBlock 18 20 [token "\x7b" 18, token "\x7d" 19]]

def hiddenVariable : Node :=
  part .variableDeclaration 51 57 [
    token "var" 51, part .variableDeclarator 55 56 [role .name .identifier 55 56 []], token ";" 56]

def hiddenConditional : Node :=
  part .ifStatement 42 59 [
    token "if" 42, condition 45 (part .identifier 46 47 []),
    role .consequence .statementBlock 49 59 [token "\x7b" 49, hiddenVariable, token "\x7d" 58]]

def hiddenCase : Node :=
  part .switchCase 95 109 [
    token "case" 95, role .value .number 100 101 [], token ":" 101,
    role .body .lexicalDeclaration 103 109 [
      roleToken .kind "let" 103,
      part .variableDeclarator 107 108 [role .name .identifier 107 108 []],
      token ";" 108]]

def visibleCase : Node :=
  part .switchCase 110 120 [
    token "case" 110, role .value .number 115 116 [], token ":" 116,
    role .body .expressionStatement 118 120 [part .identifier 118 119 [], token ";" 119]]

def hiddenCases : Node :=
  role .body (.other "switch_body") 93 122 [
    token "\x7b" 93, hiddenCase, visibleCase, token "\x7d" 121]

def hiddenSwitch : Node :=
  part .switchStatement 82 122 [
    token "switch" 82,
    role .value .parenthesizedExpression 89 92 [
      token "(" 89, part .identifier 90 91 [], token ")" 91],
    hiddenCases]

def hiddenGenerator : Node :=
  role .right .generatorFunction 64 124 [
    token "function" 64, token "*" 72, role .name .identifier 74 77 [],
    role .parameters .formalParameters 77 79 [token "(" 77, token ")" 78],
    role .body .statementBlock 80 124 [token "\x7b" 80, hiddenSwitch, token "\x7d" 123]]

def hiddenBlock : Node :=
  part (.other "class_static_block") 33 127 [
    token "static" 33,
    role .body .statementBlock 40 127 [
      token "\x7b" 40,
      hiddenConditional,
      part .expressionStatement 60 125 [
        part (.other "assignment_expression") 60 124 [
          role .left .identifier 60 61 [], token "=" 62, hiddenGenerator],
        token ";" 124],
      token "\x7d" 126]]

def hiddenTree : Node :=
  part .program 0 131 [
    hiddenLoop,
    part .expressionStatement 21 130 [
      part (.other "assignment_expression") 21 129 [
        role .left .identifier 21 22 [], token "=" 23,
        role .right .classExpression 25 129 [
          token "class" 25,
          role .body .classBody 31 129 [token "\x7b" 31, hiddenBlock, token "\x7d" 128]]],
      token ";" 129]]

/-- The statement in the second case, where the language knows the names `i`, `v`, `run` and `a`. -/
def hiddenSite : Site := follow (.root hiddenTree) [1, 0, 2, 1, 1, 1, 2, 0, 2, 4, 1, 2, 2, 3]

end Sample

namespace Source

/-! ## Forms that are overlooked -/

section

open Sample

theorem below_follow {root : Node} {s : Site} (h : Site.Below root s) (places : List Nat) :
    Site.Below root (follow s places) := by
  induction places generalizing s with
  | nil => exact h
  | cons i places ih =>
    rw [follow]
    cases hc : s.node.children[i]? with
    | none => exact h
    | some c => exact ih (.child h hc)

/-- What a node around the site of the sample declares, is declared for the site: no node but the
last is a program. -/
theorem declared_hiddenSite {form : DeclarationForm} {name : String} {frame : Frame} (k : Nat)
    (hframe : hiddenSite.above[k]? = some frame)
    (h : hiddenSource.DeclaresIn name form frame) : hiddenSource.Declared name form hiddenSite := by
  obtain ⟨hk, rfl⟩ := List.getElem?_eq_some_iff.1 hframe
  have hinner : ∀ k < 14, ∀ f ∈ hiddenSite.above.take k, f.parent.kind ≠ .program := by decide
  refine ⟨hiddenSite.above.take k, _, hiddenSite.above.drop (k + 1), ?_, hinner k hk, h⟩
  rw [← List.drop_eq_getElem_cons hk, List.take_append_drop]

theorem slice_hiddenSource :
    ∀ p ∈ [(5, 8, "var"), (9, 10, "i"), (55, 56, "v"), (74, 77, "run"), (107, 108, "a")],
      hiddenSource.slice p.1 p.2.1 = p.2.2 := by
  decide +kernel

theorem declared_otherCase : hiddenSource.Declared "a" .otherCase hiddenSite := by
  apply declared_hiddenSite 1 rfl
  apply DeclaresIn.otherCase (i := 1) rfl rfl (by decide) rfl (.tail _ (.head _))
  apply Declares.binding (.inl rfl) (.head _) rfl
  exact .declarator rfl rfl (.identifier rfl (slice_hiddenSource (107, 108, "a") (by simp)))

theorem declared_generatorName : hiddenSource.Declared "run" .generatorName hiddenSite := by
  apply declared_hiddenSite 4 rfl
  exact .generatorName rfl rfl (slice_hiddenSource (74, 77, "run") (by simp))

theorem declared_staticVariable : hiddenSource.Declared "v" .staticVariable hiddenSite := by
  apply declared_hiddenSite 8 rfl
  apply DeclaresIn.staticVariable (v := hiddenVariable) rfl rfl
  · -- through the conditional and its block
    exact .part (.head _) rfl (.part (.tail _ (.head _)) rfl (.part (.head _) rfl (.here _)))
  · rfl
  · apply Declares.binding (.inr rfl) (.head _) rfl
    exact .declarator rfl rfl (.identifier rfl (slice_hiddenSource (55, 56, "v") (by simp)))

theorem declared_loopVariable : hiddenSource.Declared "i" .loopVariable hiddenSite := by
  apply declared_hiddenSite 13 rfl
  have hloop : hiddenTree.Reaches (fun n => !n.isFunctionScope && !n.isStaticBlock) hiddenLoop :=
    .part (.head _) rfl (.here _)
  apply DeclaresIn.loopVariable rfl hloop rfl rfl (slice_hiddenSource (5, 8, "var") (by simp)) rfl
  exact .identifier rfl (slice_hiddenSource (9, 10, "i") (by simp))

/-- Each of the other forms is overlooked somewhere. -/
theorem names_are_overlooked :
    hiddenTree.label.flawed = false ∧ Site.Below hiddenTree hiddenSite ∧
      (hiddenSource.Declared "a" .otherCase hiddenSite ∧
        hiddenSource.isBound "a" hiddenSite = false) ∧
      (hiddenSource.Declared "i" .loopVariable hiddenSite ∧
        hiddenSource.isBound "i" hiddenSite = false) ∧
      (hiddenSource.Declared "v" .staticVariable hiddenSite ∧
        hiddenSource.isBound "v" hiddenSite = false) ∧
      (hiddenSource.Declared "run" .generatorName hiddenSite ∧
        hiddenSource.isBound "run" hiddenSite = false) := by
  have hfree : ∀ name ∈ ["a", "i", "v", "run"], hiddenSource.isBound name hiddenSite = false := by
    decide +kernel
  exact ⟨rfl, below_follow .root _, ⟨declared_otherCase, hfree "a" (by simp)⟩,
    ⟨declared_loopVariable, hfree "i" (by simp)⟩, ⟨declared_staticVariable, hfree "v" (by simp)⟩,
    ⟨declared_generatorName, hfree "run" (by simp)⟩⟩

end

end Source

end FlowShape
