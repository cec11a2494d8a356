import FlowShape.Proofs.Reading.Entering
import FlowShape.Scope.Lexical
import FlowShape.Scope.Parameter

/-!
# Who binds a name

Two parts of the library look at the names that a function binds: one takes the name of a capability
from the first parameter of a callback, the other asks the scopes around a site whether they bind a
name. What the first finds, the second finds too. Seen from inside a function that binds a name, the
name belongs to that function unless a scope in between declares it again.
-/

namespace FlowShape

/-! ## The grammar of parameters -/

/-- A text that starts as a pattern in another pattern does. No identifier does. -/
def Text.opensPattern (text : String) : Bool := text.toList.head?.any ("[\x7b".toList.contains ·)

/-- What the grammar says about lists of parameters. -/
structure Node.ListsParameters (n : Node) : Prop where
  list : ∀ c ∈ n.child? .parameters, c.kind = .formalParameters
  pattern : n.kind = .requiredParameter ∨ n.kind = .optionalParameter →
    (n.child? .pattern).isSome

instance (n : Node) : Decidable n.ListsParameters :=
  decidable_of_iff
    ((∀ c ∈ n.child? .parameters, c.kind = .formalParameters) ∧
      (n.kind = .requiredParameter ∨ n.kind = .optionalParameter → (n.child? .pattern).isSome))
    ⟨fun ⟨list, pattern⟩ => ⟨list, pattern⟩, fun h => ⟨h.list, h.pattern⟩⟩

namespace Node

variable {f n c pattern : Node}

theorem mem_nodes_of_mem_innerPatterns (h : c ∈ n.innerPatterns) : c ∈ n.nodes := by
  have hchild : c ∈ n.children := by
    unfold innerPatterns at h
    split at h <;>
      first
      | exact List.mem_of_find?_eq_some (Option.mem_toList.1 h)
      | exact mem_children_of_mem_parts h
      | cases h
  exact mem_nodes_of_mem_children hchild c.self_mem_nodes

/-- A first parameter stands alone, or in a list with or without a type. -/
theorem firstParameter?_cases (hgrammar : ∀ n ∈ f.nodes, n.ListsParameters)
    (h : f.firstParameter? = some pattern) :
    f.child? .parameter = some pattern ∨
      ∃ list first, f.child? .parameters = some list ∧ first ∈ list.innerPatterns ∧
        first ∈ f.nodes ∧ (pattern = first ∨ pattern ∈ first.innerPatterns) := by
  unfold firstParameter? at h
  rw [Option.orElse_eq_orElse, Option.orElse_eq_or, Option.or_eq_some_iff] at h
  refine h.imp_right ?_
  rintro ⟨-, h⟩
  obtain ⟨list, hlist, h⟩ := Option.bind_eq_some_iff.1 h
  obtain ⟨first, hfirst, h⟩ := Option.bind_eq_some_iff.1 h
  have hkind : list.kind = .formalParameters := (hgrammar f f.self_mem_nodes).list list hlist
  have hinner : first ∈ list.innerPatterns := by
    simpa [innerPatterns, hkind] using List.mem_of_mem_head? hfirst
  have hmem : first ∈ f.nodes := by
    apply mem_nodes_of_mem_children (List.mem_of_find?_eq_some hlist)
    exact mem_nodes_of_mem_innerPatterns hinner
  refine ⟨list, first, hlist, hinner, hmem, ?_⟩
  split at h
  · next hparameter =>
    obtain ⟨inner, hpattern⟩ :=
      Option.isSome_iff_exists.1 ((hgrammar first hmem).pattern hparameter)
    obtain rfl : inner = pattern := by simpa [hpattern] using h
    right
    rcases hparameter with hparameter | hparameter
    · simp [innerPatterns, hparameter, hpattern]
    · simp [innerPatterns, hparameter, hpattern]
  · exact .inl (Option.some.inj h).symm

theorem mem_nodes_of_firstParameter? (hgrammar : ∀ n ∈ f.nodes, n.ListsParameters)
    (h : f.firstParameter? = some pattern) : pattern ∈ f.nodes := by
  rcases firstParameter?_cases hgrammar h with h | ⟨-, first, -, -, hfirst, rfl | hpattern⟩
  · exact mem_nodes_of_mem_children (List.mem_of_find?_eq_some h) pattern.self_mem_nodes
  · exact hfirst
  · exact (nodes_sublist_of_mem hfirst).subset (mem_nodes_of_mem_innerPatterns hpattern)

end Node

namespace Source

variable {src : Source} {name : String} {p c : Node}

/-! ## Names in patterns -/

theorem patternBinds_of_isBindingName (h : p.isBindingName) (htext : src.text p = name) :
    src.patternBinds name p := by
  rw [patternBinds]
  simp [h, htext]

theorem patternBinds_of_mem (hc : c ∈ p.innerPatterns) (h : src.patternBinds name c) :
    src.patternBinds name p := by
  rw [patternBinds, Bool.or_eq_true]
  right
  exact List.any_eq_true.2 ⟨⟨c, hc⟩, List.mem_attach _ _, h⟩

theorem patternBinds_of_identifier
    (h : (if p.kind = .identifier then some (src.text p) else none) = some name) :
    src.patternBinds name p := by
  obtain ⟨hkind, htext⟩ := Option.ite_none_right_eq_some.1 h
  apply patternBinds_of_isBindingName
  · simp [Node.isBindingName, hkind]
  · exact Option.some.inj htext

theorem patternBinds_of_renamed? (hkind : p.kind = .pairPattern)
    (h : src.renamed? p = some name) : src.patternBinds name p := by
  obtain ⟨value, hvalue, h⟩ := Option.bind_eq_some_iff.1 h
  apply patternBinds_of_mem (c := value)
  · simp [Node.innerPatterns, hkind, hvalue]
  split at h
  · next hassignment =>
    obtain ⟨target, htarget, h⟩ := Option.bind_eq_some_iff.1 h
    apply patternBinds_of_mem (c := target)
    · simp [Node.innerPatterns, hassignment, htarget]
    · exact patternBinds_of_identifier h
  · exact patternBinds_of_identifier h

/-- What the grammar says about parameters, as far as their names go: what has a default value in
an object pattern is a name or a pattern. -/
structure NamesParameters (src : Source) (n : Node) : Prop where
  lists : n.ListsParameters
  shorthand : n.kind = .objectAssignmentPattern → ∀ c ∈ n.child? .left,
    c.isBindingName ∨ Text.opensPattern (src.text c)

instance (src : Source) (n : Node) : Decidable (src.NamesParameters n) :=
  decidable_of_iff
    (n.ListsParameters ∧
      (n.kind = .objectAssignmentPattern → ∀ c ∈ n.child? .left,
        c.isBindingName ∨ Text.opensPattern (src.text c)))
    ⟨fun ⟨lists, shorthand⟩ => ⟨lists, shorthand⟩, fun h => ⟨h.lists, h.shorthand⟩⟩

/-- What has a default value and is spelled as a key is a name. -/
def NamesShorthand (src : Source) (key : String) (n : Node) : Prop :=
  n.kind = .objectAssignmentPattern → ∀ c ∈ n.child? .left, src.text c = key → c.isBindingName

theorem NamesParameters.namesShorthand {n : Node} {key : String} (h : src.NamesParameters n)
    (hkey : Text.opensPattern key = false) : src.NamesShorthand key n := by
  rintro hkind c hc rfl
  refine (h.shorthand hkind c hc).resolve_right ?_
  simp [hkey]

/-- The name that the properties of an object pattern give to a key is bound by one of them. -/
theorem exists_of_aliasIn? {key : String} {properties : List Node}
    (hgrammar : ∀ q ∈ properties, src.NamesShorthand key q)
    (h : src.aliasIn? key properties = some name) :
    ∃ q ∈ properties, src.patternBinds name q := by
  fun_induction aliasIn? src key properties with
  | case1 => cases h
  | case2 q rest hkind htext =>
    obtain rfl := Option.some.inj h
    have hname : q.isBindingName := by simp [Node.isBindingName, hkind]
    exact ⟨q, by simp, patternBinds_of_isBindingName hname htext⟩
  | case4 q rest hkind left hleft htext =>
    obtain rfl := Option.some.inj h
    have hname : left.isBindingName := hgrammar q (by simp) hkind left hleft htext
    have hinner : left ∈ q.innerPatterns := by simp [Node.innerPatterns, hkind, hleft]
    exact ⟨q, by simp, patternBinds_of_mem hinner (patternBinds_of_isBindingName hname htext)⟩
  | case6 => cases h
  | case7 q rest hkind _ => exact ⟨q, by simp, patternBinds_of_renamed? hkind h⟩
  | _ => grind

theorem patternBinds_of_destructuredAlias? {pattern : Node} {key : String}
    (hkind : pattern.kind = .objectPattern)
    (hgrammar : ∀ n ∈ pattern.nodes, src.NamesShorthand key n)
    (h : src.destructuredAlias? pattern key = some name) : src.patternBinds name pattern := by
  have hparts : ∀ q ∈ pattern.parts, src.NamesShorthand key q := by
    intro q hq
    apply hgrammar
    exact Node.mem_nodes_of_mem_children (Node.mem_children_of_mem_parts hq) q.self_mem_nodes
  obtain ⟨q, hq, hbinds⟩ := exists_of_aliasIn? hparts h
  exact patternBinds_of_mem (by simpa [Node.innerPatterns, hkind] using hq) hbinds

/-! ## Names of parameters -/

/-- A function binds a name by its parameters. -/
def ParametersBind (src : Source) (name : String) (f : Node) : Prop :=
  ∃ p, (f.child? .parameter = some p ∨ f.child? .parameters = some p) ∧ src.patternBinds name p

theorem ParametersBind.functionBinds {f : Node} (h : src.ParametersBind name f) :
    src.functionBinds name f := by
  obtain ⟨p, hp | hp, hbinds⟩ := h
  · simp [Source.functionBinds, hp, hbinds]
  · simp [Source.functionBinds, hp, hbinds]

/-- What the first parameter of a function binds, its parameters bind. -/
theorem parametersBind_of_firstParameter? {f pattern : Node}
    (hgrammar : ∀ n ∈ f.nodes, n.ListsParameters) (h : f.firstParameter? = some pattern)
    (hbinds : src.patternBinds name pattern) : src.ParametersBind name f := by
  rcases Node.firstParameter?_cases hgrammar h with h | ⟨list, first, hlist, hfirst, -, hpattern⟩
  · exact ⟨pattern, .inl h, hbinds⟩
  · refine ⟨list, .inr hlist, patternBinds_of_mem hfirst ?_⟩
    rcases hpattern with rfl | hpattern
    · exact hbinds
    · exact patternBinds_of_mem hpattern hbinds

/-- The name that a callback gives to a capability is one of its parameters. -/
theorem parametersBind_of_parameterBinding? {callback : Node} {key : String}
    {b : ParameterBinding} (hgrammar : ∀ n ∈ callback.nodes, src.NamesParameters n)
    (hkey : Text.opensPattern key = false)
    (h : src.parameterBinding? callback key = some b) : src.ParametersBind b.name callback := by
  have hlists : ∀ n ∈ callback.nodes, n.ListsParameters := fun n hn => (hgrammar n hn).lists
  obtain ⟨pattern, hpattern, h⟩ := Option.bind_eq_some_iff.1 h
  apply parametersBind_of_firstParameter? hlists hpattern
  split at h
  · next hkind =>
    obtain rfl := Option.some.inj h
    exact patternBinds_of_isBindingName (by simp [Node.isBindingName, hkind]) rfl
  · next hkind =>
    obtain ⟨name, hname, rfl⟩ := Option.map_eq_some_iff.1 h
    apply patternBinds_of_destructuredAlias? hkind _ hname
    have hmem : pattern ∈ callback.nodes := Node.mem_nodes_of_firstParameter? hlists hpattern
    intro n hn
    exact (hgrammar n ((Node.nodes_sublist_of_mem hmem).subset hn)).namesShorthand hkey
  · cases h

theorem scopeBinds_of_isFunctionScope {f : Node} (hf : f.isFunctionScope) :
    src.scopeBinds name f = src.functionBinds name f := by
  unfold scopeBinds
  split
  case h_9 => simp [hf]
  all_goals simp_all [Node.isFunctionScope, Kind.isFunctionScope, Kind.isFunctionLiteral]

/-- The name that a callback gives to a capability is one that it binds. -/
theorem scopeBinds_of_parameterBinding? {callback : Node} {key : String} {b : ParameterBinding}
    (hliteral : callback.isFunctionLiteral)
    (hgrammar : ∀ n ∈ callback.nodes, src.NamesParameters n)
    (hkey : Text.opensPattern key = false) (h : src.parameterBinding? callback key = some b) :
    src.scopeBinds b.name callback := by
  rw [scopeBinds_of_isFunctionScope (Kind.isFunctionScope_of_isFunctionLiteral hliteral)]
  exact (parametersBind_of_parameterBinding? hgrammar hkey h).functionBinds

end Source

/-! ## The nearest scope -/

/-- The frames of a site below a root: that of the root is the last, and those before it are of
smaller nodes. -/
theorem Site.Below.above_eq {root : Node} {s : Site} (h : Below root s) :
    s = .root root ∨ s.node.size < root.size ∧
      ∃ inner i, s.above = inner ++ [⟨root, i⟩] ∧
        ∀ frame ∈ inner, frame.parent.size < root.size := by
  induction h with
  | root => exact .inl rfl
  | @child s i c _ hc ih =>
    right
    have hsize := Node.size_lt_of_mem (List.mem_of_getElem? hc)
    rcases ih with rfl | ⟨hnode, inner, j, habove, hinner⟩
    · exact ⟨hsize, [], i, rfl, nofun⟩
    · refine ⟨Nat.lt_trans hsize hnode, ⟨s.node, i⟩ :: inner, j, by simp [habove], ?_⟩
      exact List.forall_mem_cons.2 ⟨hnode, hinner⟩

namespace Source

variable {src : Source} {name : String} {root : Node} {site : Site}

/-- The nearest scope around a site that binds a name. -/
def binder? (src : Source) (name : String) (site : Site) : Option Node :=
  (site.above.map (·.parent)).find? (src.scopeBinds name)

/-- Whether a name is declared in a scope around a site, apart from the outermost. -/
def isRedeclared (src : Source) (name : String) (site : Site) : Bool :=
  site.above.dropLast.any fun frame => src.scopeBinds name frame.parent

/-- Inside a function that binds a name, the name is that of the function unless it is declared
again. -/
theorem binder?_eq_root_iff (hbinds : src.scopeBinds name root) (h : Site.Below root site)
    (hinside : site ≠ .root root) :
    src.binder? name site = some root ↔ src.isRedeclared name site = false := by
  obtain ⟨-, inner, i, habove, hinner⟩ := h.above_eq.resolve_left hinside
  have hredeclared : src.isRedeclared name site =
      inner.any fun frame => src.scopeBinds name frame.parent := by
    simp [isRedeclared, habove]
  have hbinder : src.binder? name site =
      ((inner.map (·.parent)).find? (src.scopeBinds name)).or (some root) := by
    simp [binder?, habove, hbinds]
  rw [hredeclared, hbinder]
  cases hfind : (inner.map (·.parent)).find? (src.scopeBinds name) with
  | none =>
    have hnone : (inner.any fun frame => src.scopeBinds name frame.parent) = false := by
      simpa using hfind
    simp [hnone]
  | some scope =>
    obtain ⟨frame, hframe, rfl⟩ := List.mem_map.1 (List.mem_of_find?_eq_some hfind)
    have hscope := List.find?_some hfind
    have hne : frame.parent ≠ root := by
      intro heq
      have hsize := hinner frame hframe
      rw [heq] at hsize
      omega
    have hany : (inner.any fun frame => src.scopeBinds name frame.parent) = true :=
      List.any_eq_true.2 ⟨frame, hframe, hscope⟩
    simp [hany, hne]

end Source

end FlowShape
