import FlowShape.Proofs.Call.Classification
import FlowShape.Proofs.Reading.Steps
import FlowShape.Proofs.Tree.Order

/-!
# Functions that are entered

Reading goes into a function literal in a few positions only, and into no other function. Classes
are closed too, but for those that are declared in a namespace: a namespace is read as an
expression, with all that is declared in it. The arguments of steps and of references to other
workflows are closed as a whole.
-/

namespace FlowShape

/-! ## The grammar of statements -/

namespace Kind

def isClass : Kind → Bool
  | .classExpression | .classDeclaration | .abstractClassDeclaration => true
  | _ => false

def isNamespace (k : Kind) : Bool := k == .other "internal_module"

/-- Statements around others, their clauses, and classes that are declared as statements. -/
def isStatement : Kind → Bool
  | .program | .statementBlock | .ifStatement | .forStatement | .forInStatement | .whileStatement
  | .doStatement | .labeledStatement | .tryStatement | .catchClause | .switchStatement
  | .switchCase | .switchDefault | .exportStatement | .ambientDeclaration | .classDeclaration
  | .abstractClassDeclaration | .classBody => true
  | .other name => ["else_clause", "finally_clause", "switch_body", "with_statement",
      "class_static_block", "module"].contains name
  | _ => false

def holdsStatements (k : Kind) : Bool :=
  k.isStatement || k.isFunctionScope || k.isClass || k.isNamespace

/-- The clauses of statements: the statement, the field and the kind of what is there. -/
def clauses : List (Kind × Field × Kind) :=
  [(.ifStatement, .alternative, .other "else_clause"), (.tryStatement, .handler, .catchClause),
   (.tryStatement, .finalizer, .other "finally_clause"),
   (.switchStatement, .body, .other "switch_body")]

theorem not_holdsStatements_of_isTransparent {k : Kind} (h : k.isTransparent) :
    k.holdsStatements = false := by
  unfold isTransparent at h
  split at h
  case h_6 => cases h
  all_goals decide

theorem isStatement_of_isClass {k : Kind} (h : k.isClass) (hk : k ≠ .classExpression) :
    k.isStatement := by
  unfold isClass at h
  split at h
  case h_1 => contradiction
  case h_4 => cases h
  all_goals rfl

theorem not_isStatement_of_isFunctionLiteral {k : Kind} (h : k.isFunctionLiteral) :
    k.isStatement = false ∧ k.isClass = false := by
  unfold isFunctionLiteral at h
  split at h
  case h_5 => cases h
  all_goals exact ⟨rfl, rfl⟩

end Kind

/-- What the grammar says about the children of a node, as far as functions and classes go:
statements stand among statements, in the body of a function, or in a namespace. -/
structure Node.Regular (n : Node) : Prop where
  statements : ∀ c ∈ n.children, c.kind.isStatement →
    n.kind.holdsStatements ∧ (n.isFunctionScope → c.kind = .statementBlock)
  clauses : ∀ p ∈ Kind.clauses, n.kind = p.1 → ∀ c ∈ n.inField p.2.1, c.kind = p.2.2
  declarators : n.kind = .lexicalDeclaration ∨ n.kind = .variableDeclaration →
    ∀ c ∈ n.parts, c.kind = .variableDeclarator

instance (n : Node) : Decidable n.Regular :=
  decidable_of_iff
    ((∀ c ∈ n.children, c.kind.isStatement →
        n.kind.holdsStatements ∧ (n.isFunctionScope → c.kind = .statementBlock)) ∧
      (∀ p ∈ Kind.clauses, n.kind = p.1 → ∀ c ∈ n.inField p.2.1, c.kind = p.2.2) ∧
      (n.kind = .lexicalDeclaration ∨ n.kind = .variableDeclaration →
        ∀ c ∈ n.parts, c.kind = .variableDeclarator))
    ⟨fun ⟨statements, clauses, declarators⟩ => ⟨statements, clauses, declarators⟩,
      fun h => ⟨h.statements, h.clauses, h.declarators⟩⟩

namespace Node

variable {n c : Node} {i : Nat}

theorem mem_inField_of_fieldIndex? {f : Field} (h : n.fieldIndex? f = some i)
    (hc : n.children[i]? = some c) : c ∈ n.inField f := by
  simp [inField_eq, h, hc]

/-- The parts of a node are counted by their rank. -/
theorem getElem?_parts_rank (hc : n.children[i]? = some c) (hp : c.isPart) :
    n.parts[n.rank i]? = some c := by
  have key (cs : List Node) (i : Nat) (h : cs[i]? = some c) :
      (cs.filter isPart)[(cs.take i).countP isPart]? = some c := by
    induction cs generalizing i with
    | nil => simp at h
    | cons d ds ih =>
      cases i with
      | zero =>
        obtain rfl : d = c := by simpa using h
        simp [hp]
      | succ i =>
        have hd := ih i (by simpa using h)
        by_cases hpart : d.isPart <;> simpa [hpart, List.countP_cons] using hd
  exact key n.children i hc

end Node

/-! ## Positions -/

namespace Site

/-- The sites at or below the root of a tree. -/
inductive Below (root : Node) : Site → Prop
  | root : Below root (.root root)
  | child {s : Site} {i : Nat} {c : Node} : Below root s → s.node.children[i]? = some c →
      Below root ⟨c, ⟨s.node, i⟩ :: s.above⟩

theorem Below.mem_nodes {root : Node} {s : Site} (h : Below root s) : s.node ∈ root.nodes := by
  induction h with
  | root => exact Node.self_mem_nodes root
  | @child s i c _ hc ih =>
    have hmem : c ∈ s.node.nodes :=
      Node.mem_nodes_of_mem_children (List.mem_of_getElem? hc) (Node.self_mem_nodes c)
    exact (Node.nodes_sublist_of_mem ih).subset hmem

/-- A site and the one inside its wrappers, or inside some of them. -/
inductive Wraps (outer : Site) : Site → Prop
  | self : outer.Wraps outer
  | inside {s : Site} {i : Nat} {c : Node} : outer.Wraps s → s.node.kind.isTransparent →
      s.node.firstPart? = some c → outer.Wraps ⟨c, ⟨s.node, i⟩ :: s.above⟩

/-- The site of the argument of a call at the place `j`. -/
def ArgumentOf (s : Site) (call : Node) (j : Nat) : Prop :=
  ∃ list i k rest, s.above = ⟨list, i⟩ :: ⟨call, k⟩ :: rest ∧ call.child? .arguments = some list ∧
    list.rank i = j ∧ call.callArguments[j]? = some s.node

theorem ArgumentOf.getElem? {s : Site} {call : Node} {j : Nat} (h : s.ArgumentOf call j) :
    call.callArguments[j]? = some s.node := by
  obtain ⟨-, -, -, -, -, -, -, hget⟩ := h
  exact hget

end Site

namespace Reader

/-- The positions that reading sees through wrappers and in which it enters a function literal. -/
inductive Opens (r : Reader) (s : Site) : Prop
  | conditional {call : Node} : s.ArgumentOf call 1 → (r.shapeOf? call).isSome →
      r.source.calleeOf call ∈ ["when", "unless", "whenOr", "unlessOr"] → r.Opens s
  | combinator {call : Node} : s.ArgumentOf call 0 → (r.shapeOf? call).isSome →
      r.source.calleeOf call ∈ ["allAsync", "allSettledAsync", "anyAsync"] → r.Opens s
  | element {array call : Node} {outer : Site} {i : Nat} {rest : List Frame} :
      s.above = ⟨array, i⟩ :: rest → array.kind = .array → outer.Wraps ⟨array, rest⟩ →
      outer.ArgumentOf call 0 → (r.shapeOf? call).isSome →
      r.source.calleeOf call ∈ ["allAsync", "allSettledAsync", "anyAsync"] → r.Opens s

/-- The positions in which a function literal is entered. -/
inductive EntersAt (r : Reader) (s : Site) : Prop
  | wrapped {outer : Site} : r.Opens outer → outer.Wraps s → r.EntersAt s
  /-- The first function literal among the arguments of `step.parallel` or `step.race`. -/
  | method {call : Node} {j : Nat} {step : String} : s.ArgumentOf call j →
      (r.shapeOf? call).isSome → call.callArguments.findIdx? Node.isFunctionLiteral = some j →
      r.context.step = some step →
      r.source.calleeOf call ∈ [step ++ ".parallel", step ++ ".race"] → r.EntersAt s
  | iteration {call function : Node} : s.ArgumentOf call 0 → (r.shapeOf? call).isSome →
      call.child? .function = some function → function.unwrap.kind = .memberExpression →
      (function.unwrap.child? .property).map r.source.text ∈ [some "forEach", some "map"] →
      r.EntersAt s

/-- What is known of the site of a node that is read in a role. -/
def Position (r : Reader) (s : Site) : Mode → Prop
  | .callback => s.node.isFunctionLiteral ∧ (s.above = [] ∨ r.EntersAt s)
  | .argument | .element => ∃ outer, r.Opens outer ∧ outer.Wraps s
  | .branches => ∃ (outer : Site) (call : Node), outer.Wraps s ∧ outer.ArgumentOf call 0 ∧
      (r.shapeOf? call).isSome ∧
      r.source.calleeOf call ∈ ["allAsync", "allSettledAsync", "anyAsync"]
  | .arguments shape => ∃ call k rest, s.above = ⟨call, k⟩ :: rest ∧
      r.shapeOf? call = some shape ∧ call.child? .arguments = some s.node
  | _ => True

variable {r : Reader} {m m' : Mode} {s : Site} {i : Nat} {c : Node}

theorem classify_of_shapeOf? {n : Node} {shape : CallShape} (h : r.shapeOf? n = some shape) :
    n.kind = .callExpression ∧ r.classify n = some shape := by
  unfold shapeOf? at h
  split at h
  · next hk => exact ⟨hk, h⟩
  · cases h

/-- The role of the first function literal in a method that runs a callback. -/
theorem position_of_enclosedMode? {call : Node} {step : String} {j : Nat}
    (hargument : s.ArgumentOf call j) (hshape : (r.shapeOf? call).isSome)
    (hstep : r.context.step = some step)
    (hcallee : r.source.calleeOf call ∈ [step ++ ".parallel", step ++ ".race"])
    (h : CallShape.enclosedMode? call.callArguments j = some m) : r.Position s m := by
  unfold CallShape.enclosedMode? at h
  split at h
  · next k hk =>
    simp only [Option.ite_none_right_eq_some, Option.some.injEq] at h
    obtain ⟨rfl, rfl⟩ := h
    refine ⟨?_, .inr (.method hargument hshape hk hstep hcallee)⟩
    obtain ⟨hlt, hliteral, -⟩ := List.findIdx?_eq_some_iff_getElem.1 hk
    have hget := hargument.getElem?
    rw [List.getElem?_eq_getElem hlt, Option.some.injEq] at hget
    rwa [hget] at hliteral
  · simp only [Option.ite_none_left_eq_some, Option.some.injEq] at h
    obtain ⟨-, rfl⟩ := h
    trivial

/-- The positions of the arguments that are read, by the shape of the call. -/
theorem position_of_argumentMode? {call : Node} {shape : CallShape} {j : Nat}
    (hshape : r.shapeOf? call = some shape) (hargument : s.ArgumentOf call j)
    (h : shape.argumentMode? call.callArguments j = some m) : r.Position s m := by
  have hsome : (r.shapeOf? call).isSome := by simp [hshape]
  cases classified (classify_of_shapeOf? hshape).2 with
  | step | sagaStep | workflowRef => cases h
  | @method step name method hstep hcallee hname =>
    cases method with
    | retry | withTimeout | stream => cases h
    | parallel =>
      rw [StepMethod.eq_of_ofName?_parallel hname, String.append_assoc] at hcallee
      simp only [CallShape.argumentMode?] at h
      split at h
      · simp only [Option.ite_none_right_eq_some, Option.some.injEq] at h
        obtain ⟨-, rfl⟩ := h
        trivial
      · exact position_of_enclosedMode? hargument hsome hstep (List.mem_cons.2 (.inl hcallee)) h
    | race =>
      rw [StepMethod.eq_of_ofName?_race hname, String.append_assoc] at hcallee
      exact position_of_enclosedMode? hargument hsome hstep (by simp [hcallee]) h
  | @helper helper hname =>
    cases helper with
    | conditional helper =>
      simp only [CallShape.argumentMode?, Option.ite_none_right_eq_some, Option.some.injEq] at h
      obtain ⟨rfl, rfl⟩ := h
      exact ⟨s, .conditional hargument hsome (Helper.mem_of_ofName?_conditional hname), .self⟩
    | combinator combinator =>
      have hnames := Helper.mem_of_ofName?_combinator hname
      simp only [CallShape.argumentMode?, Option.ite_none_right_eq_some, Option.some.injEq] at h
      obtain ⟨rfl, rfl⟩ := h
      split
      · exact ⟨s, call, .self, hargument, hsome, hnames⟩
      · exact ⟨s, .combinator hargument hsome hnames, .self⟩
  | iteration hfunction hkind hname hcallback =>
    simp only [CallShape.argumentMode?, Option.ite_none_right_eq_some, Option.some.injEq] at h
    obtain ⟨rfl, rfl⟩ := h
    refine ⟨?_, .inr (.iteration hargument hsome hfunction hkind hname)⟩
    have hget := hargument.getElem?
    rw [← List.head?_eq_getElem?] at hget
    simpa [Node.leadingCallback?, hget, Option.isSome_filter] using hcallback

end Reader

/-! ## Sites that reading gets to -/

namespace Mode

/-- The kinds of the nodes that have a role, if the grammar allows only some. -/
def kinds? : Mode → Option (List Kind)
  | .entry => some [.pair]
  | .declarator => some [.variableDeclarator]
  | .elseClause => some [.other "else_clause"]
  | .handler => some [.catchClause, .other "finally_clause"]
  | .switchBody => some [.other "switch_body"]
  | .case => some [.switchCase, .switchDefault]
  | _ => none

/-- Whether a node that holds statements is read as such. -/
def admits (m : Mode) (n : Node) : Bool :=
  match m with
  | .statement | .elseClause | .handler | .switchBody | .case => true
  | .body => n.kind == .statementBlock
  | _ => false

end Mode

def Site.InNamespace (s : Site) : Prop := ∃ frame ∈ s.above, frame.parent.kind.isNamespace

namespace Reader

/-- What holds of a node that is read in a role. -/
structure Standing (r : Reader) (m : Mode) (s : Site) : Prop where
  kind : ∀ kinds ∈ m.kinds?, s.node.kind ∈ kinds
  statement : s.node.kind.isStatement → m.admits s.node ∨ s.InNamespace
  position : r.Position s m
  /-- Of a call with a shape, only the arguments are read. -/
  call : ∀ frame ∈ s.above.head?, ∀ shape, r.shapeOf? frame.parent = some shape →
    m = .arguments shape

theorem kinds?_of_argumentMode? {shape : CallShape} {arguments : List Node} {j : Nat} {m : Mode}
    (h : shape.argumentMode? arguments j = some m) : m.kinds? = none := by
  unfold CallShape.argumentMode? CallShape.enclosedMode? at h
  grind [Mode.kinds?]

namespace Standing

variable {r : Reader} {m m' : Mode} {s : Site} {i : Nat} {c : Node}

theorem kind_child (hs : r.Standing m s) (hn : s.node.Regular) (hc : s.node.children[i]? = some c)
    (h : r.Steps s.node i c m m') : ∀ kinds ∈ m'.kinds?, c.kind ∈ kinds := by
  cases h with
  | declarator hk hp =>
    have hparts : c ∈ s.node.parts := List.mem_filter.2 ⟨List.mem_of_getElem? hc, hp⟩
    simpa [Mode.kinds?] using hn.declarators (by simpa using hk) c hparts
  | elseClause hk hi =>
    have hfield := Node.mem_inField_of_fieldIndex? hi hc
    simpa [Mode.kinds?] using hn.clauses (.ifStatement, .alternative, _) (by decide) hk c hfield
  | handler hk hf hi =>
    have hfield := Node.mem_inField_of_fieldIndex? hi hc
    simp only [List.mem_cons, List.not_mem_nil, or_false] at hf
    rcases hf with rfl | rfl
    · simpa [Mode.kinds?] using
        .inl (hn.clauses (.tryStatement, .handler, _) (by decide) hk c hfield)
    · simpa [Mode.kinds?] using
        .inr (hn.clauses (.tryStatement, .finalizer, _) (by decide) hk c hfield)
  | switchBody hk hi =>
    have hfield := Node.mem_inField_of_fieldIndex? hi hc
    simpa [Mode.kinds?] using hn.clauses (.switchStatement, .body, _) (by decide) hk c hfield
  | entry _ hk => simpa [Mode.kinds?] using hk
  | case hk => simpa [Mode.kinds?] using hk
  | argument _ _ _ h => simp [kinds?_of_argumentMode? h]
  | unwrap hm =>
    simp only [List.mem_cons, List.not_mem_nil, or_false] at hm
    rcases hm with rfl | rfl | rfl | rfl | rfl <;> nofun
  | _ => nofun

/-- What a step from a node says of the node, as far as statements in it go. -/
theorem turn (hs : r.Standing m s) (h : r.Steps s.node i c m m') :
    s.node.kind.holdsStatements = false ∨
    (m'.admits c ∧ s.node.isFunctionScope = false ∧ s.node.kind.isClass = false) ∨
    (m.admits s.node = false ∧ s.node.isFunctionScope = false ∧
      s.node.kind ≠ .classExpression) ∨
    (m' = .body ∧ s.node.isFunctionLiteral ∧ (s.above = [] ∨ r.EntersAt s)) := by
  have hopen {kinds : List Kind} (hk : s.node.kind ∈ kinds)
      (hkinds : ∀ k ∈ kinds, k.isFunctionScope = false ∧ k.isClass = false) :
      s.node.isFunctionScope = false ∧ s.node.kind.isClass = false := hkinds _ hk
  have hnone {kinds : List Kind} (hk : s.node.kind ∈ kinds)
      (hkinds : ∀ k ∈ kinds, k.holdsStatements = false) : s.node.kind.holdsStatements = false :=
    hkinds _ hk
  cases h with
  | operand hk => exact .inl (hnone hk (by decide))
  | declarator hk => exact .inl (hnone hk (by decide))
  | statement hk => exact .inr (.inl ⟨rfl, hopen hk (by decide)⟩)
  | elseClause hk | handler hk | switchBody hk | block hk =>
    exact .inr (.inl ⟨rfl, hopen (List.mem_singleton.2 hk) (by decide)⟩)
  | clause hm =>
    refine .inr (.inl ⟨rfl, ?_⟩)
    simp only [List.mem_cons, List.not_mem_nil, or_false] at hm
    rcases hm with rfl | rfl | rfl
    · exact hopen (hs.kind _ rfl) (by decide)
    · exact hopen (hs.kind _ rfl) (by decide)
    · exact hopen (hs.kind _ rfl) (by decide)
  | case => exact .inr (.inl ⟨rfl, hopen (hs.kind _ rfl) (by decide)⟩)
  | unwrap _ ht | unwrapBody ht => exact .inl (Kind.not_holdsStatements_of_isTransparent ht)
  | arguments _ hshape =>
    exact .inl (hnone (List.mem_singleton.2 (classify_of_shapeOf? hshape).1) (by decide))
  | element hk | entry hk | keyedBranch _ hk | argument hk =>
    exact .inl (hnone (List.mem_singleton.2 hk) (by decide))
  | entryValue | initializer => exact .inl (hnone (hs.kind _ rfl) (by decide))
  | within hm hf hclass _ hblock =>
    refine .inr (.inr (.inl ⟨?_, hf, hclass⟩))
    simp only [List.mem_cons, List.not_mem_nil, or_false] at hm
    rcases hm with rfl | rfl | rfl | rfl
    · rfl
    · simpa [Mode.admits] using hblock rfl
    · rfl
    · rfl
  | body hm hi =>
    refine .inr (.inr (.inr ⟨rfl, ?_⟩))
    rcases hm with rfl | ⟨hm, hf⟩
    · exact hs.position
    · simp only [List.mem_cons, List.not_mem_nil, or_false] at hm
      have hposition := hs.position
      rcases hm with rfl | rfl
      · obtain ⟨outer, hopens, hwraps⟩ := hposition
        exact ⟨hf, .inr (.wrapped hopens hwraps)⟩
      · obtain ⟨outer, hopens, hwraps⟩ := hposition
        exact ⟨hf, .inr (.wrapped hopens hwraps)⟩

theorem statement_child (hs : r.Standing m s) (hn : s.node.Regular)
    (hc : s.node.children[i]? = some c) (h : r.Steps s.node i c m m')
    (hstatement : c.kind.isStatement) :
    m'.admits c ∨ Site.InNamespace ⟨c, ⟨s.node, i⟩ :: s.above⟩ := by
  obtain ⟨hholds, hblock⟩ := hn.statements c (List.mem_of_getElem? hc) hstatement
  obtain hclosed | ⟨hadmits, -⟩ | ⟨hadmits, hf, hclass⟩ | ⟨rfl, hliteral, -⟩ := hs.turn h
  · rw [hclosed] at hholds
    cases hholds
  · exact .inl hadmits
  · -- statements that are read as an expression are those of a namespace
    right
    have hkinds : s.node.kind.isStatement ∨ s.node.kind.isNamespace := by
      simp only [Node.isFunctionScope] at hf
      have hclass : s.node.kind.isClass → s.node.kind.isStatement := fun h =>
        Kind.isStatement_of_isClass h hclass
      simp only [Kind.holdsStatements, hf, Bool.or_eq_true, Bool.or_false] at hholds
      tauto
    rcases hkinds with hkind | hkind
    · obtain ⟨frame, hframe, hnamespace⟩ := (hs.statement hkind).resolve_left (by simp [hadmits])
      exact ⟨frame, List.mem_cons_of_mem _ hframe, hnamespace⟩
    · exact ⟨_, List.mem_cons_self, hkind⟩
  · left
    simpa [Mode.admits] using hblock (Kind.isFunctionScope_of_isFunctionLiteral hliteral)

theorem position_child (hs : r.Standing m s) (hc : s.node.children[i]? = some c)
    (h : r.Steps s.node i c m m') : r.Position ⟨c, ⟨s.node, i⟩ :: s.above⟩ m' := by
  cases h with
  | unwrap hm ht hp hrank =>
    have hfirst : s.node.firstPart? = some c := by
      rw [Node.firstPart?, List.head?_eq_getElem?, ← hrank]
      exact Node.getElem?_parts_rank hc hp
    have hposition := hs.position
    simp only [List.mem_cons, List.not_mem_nil, or_false] at hm
    rcases hm with rfl | rfl | rfl | rfl | rfl
    · trivial
    · obtain ⟨outer, hopens, hwraps⟩ := hposition
      exact ⟨outer, hopens, hwraps.inside ht hfirst⟩
    · obtain ⟨outer, hopens, hwraps⟩ := hposition
      exact ⟨outer, hopens, hwraps.inside ht hfirst⟩
    · obtain ⟨outer, call, hwraps, hcall⟩ := hposition
      exact ⟨outer, call, hwraps.inside ht hfirst, hcall⟩
    · trivial
  | arguments _ hshape hi =>
    have hchild : s.node.child? .arguments = some c :=
      Option.mem_toList.1 (Node.mem_inField_of_fieldIndex? hi hc)
    exact ⟨s.node, i, s.above, rfl, hshape, hchild⟩
  | element hk =>
    obtain ⟨outer, call, hwraps, hargument, hshape, hcallee⟩ := hs.position
    exact ⟨_, .element rfl hk hwraps hargument hshape hcallee, .self⟩
  | argument hk _ hp hmode =>
    obtain ⟨call, k, rest, habove, hshape, hlist⟩ := hs.position
    have harguments : call.callArguments = s.node.parts := by
      simp [Node.callArguments, hlist, hk]
    have hargument : Site.ArgumentOf ⟨c, ⟨s.node, i⟩ :: s.above⟩ call (s.node.rank i) :=
      ⟨s.node, i, k, rest, by rw [habove], hlist, rfl,
        by rw [harguments]; exact Node.getElem?_parts_rank hc hp⟩
    exact position_of_argumentMode? hshape hargument (harguments ▸ hmode)
  | _ => trivial

theorem call_child (hs : r.Standing m s) (h : r.Steps s.node i c m m') (shape : CallShape)
    (hshape : r.shapeOf? s.node = some shape) : m' = .arguments shape := by
  have hk := (classify_of_shapeOf? hshape).1
  have hnone {kinds : List Kind} (h : s.node.kind ∈ kinds)
      (hkinds : Kind.callExpression ∉ kinds) : False := hkinds (hk ▸ h)
  cases h with
  | arguments _ hshape' =>
    rw [hshape, Option.some.injEq] at hshape'
    rw [hshape']
  | within _ _ _ hshape' =>
    rw [hshape] at hshape'
    cases hshape'
  | operand h | declarator h | statement h => exact (hnone h (by decide)).elim
  | elseClause h | handler h | switchBody h | block h | element h | entry h | keyedBranch _ h
  | argument h => exact (hnone (List.mem_singleton.2 h) (by decide)).elim
  | entryValue | initializer | case => exact (hnone (hs.kind _ rfl) (by decide)).elim
  | clause hm =>
    simp only [List.mem_cons, List.not_mem_nil, or_false] at hm
    rcases hm with rfl | rfl | rfl
    · exact (hnone (hs.kind _ rfl) (by decide)).elim
    · exact (hnone (hs.kind _ rfl) (by decide)).elim
    · exact (hnone (hs.kind _ rfl) (by decide)).elim
  | unwrap _ ht | unwrapBody ht => exact absurd hk (Node.kind_ne_callExpression ht)
  | body hm =>
    have hliteral : s.node.isFunctionLiteral := by
      rcases hm with rfl | ⟨-, hf⟩
      · exact hs.position.1
      · exact hf
    simp [Node.isFunctionLiteral, hk, Kind.isFunctionLiteral] at hliteral

theorem child (hs : r.Standing m s) (hn : s.node.Regular) (hc : s.node.children[i]? = some c)
    (h : r.Steps s.node i c m m') : r.Standing m' ⟨c, ⟨s.node, i⟩ :: s.above⟩ where
  kind := hs.kind_child hn hc h
  statement := hs.statement_child hn hc h
  position := hs.position_child hc h
  call := by
    intro frame hframe shape hshape
    cases hframe
    exact hs.call_child h shape hshape

end Standing

variable {r : Reader} {root : Node} {m : Mode} {s : Site}

theorem Reaches.site_below (h : r.Reaches root m s) : Site.Below root s := by
  induction h with
  | root => exact .root
  | child _ hc _ ih => exact ih.child hc

theorem Reaches.standing (hliteral : root.isFunctionLiteral)
    (hregular : ∀ n ∈ root.nodes, n.Regular) (h : r.Reaches root m s) : r.Standing m s := by
  induction h with
  | root =>
    exact
      { kind := nofun
        statement := fun hstatement => by
          have hnone : (Site.root root).node.kind.isStatement = false :=
            (Kind.not_isStatement_of_isFunctionLiteral hliteral).1
          simp [hnone] at hstatement
        position := ⟨hliteral, .inl rfl⟩
        call := nofun }
  | child hs hc hp ih =>
    exact ih.child (hregular _ hs.site_below.mem_nodes) hc (steps_of_passage hp)

/-- What holds of a node on the way down from a callback to what is read inside. -/
structure Passable (r : Reader) (s : Site) : Prop where
  functions : s.node.isFunctionScope → s.node.isFunctionLiteral ∧ r.EntersAt s
  classes : s.node.kind.isClass → s.InNamespace

theorem Standing.passable {m' : Mode} {i : Nat} {c : Node} (hs : r.Standing m s)
    (h : r.Steps s.node i c m m') (habove : s.above ≠ []) : r.Passable s := by
  have hturn := hs.turn h
  constructor
  · intro hf
    have hholds : s.node.kind.holdsStatements := by
      simp only [Node.isFunctionScope] at hf
      simp [Kind.holdsStatements, hf]
    obtain hclosed | ⟨-, hf', -⟩ | ⟨-, hf', -⟩ | ⟨-, hliteral, hposition⟩ := hturn
    · simp [hclosed] at hholds
    · simp [hf'] at hf
    · simp [hf'] at hf
    · exact ⟨hliteral, hposition.resolve_left habove⟩
  · intro hclass
    have hholds : s.node.kind.holdsStatements := by simp [Kind.holdsStatements, hclass]
    obtain hclosed | ⟨-, -, hclass'⟩ | ⟨hadmits, -, hkind⟩ | ⟨-, hliteral, -⟩ := hturn
    · simp [hclosed] at hholds
    · simp [hclass'] at hclass
    · have hstatement := Kind.isStatement_of_isClass hclass hkind
      exact (hs.statement hstatement).resolve_left (by simp [hadmits])
    · simp [(Kind.not_isStatement_of_isFunctionLiteral hliteral).2] at hclass

/-- From the callback itself, reading goes into its body. -/
theorem Reaches.body_of_above_eq_nil {m' : Mode} {i : Nat} {c : Node} (h : r.Reaches root m s)
    (habove : s.above = []) (hp : r.passage m s.node i c = .enters m') :
    s.node = root ∧ root.fieldIndex? .body = some i := by
  cases h with
  | root =>
    obtain ⟨f, hf, hi⟩ := Passage.exists_of_ofField hp
    simp only [List.mem_singleton, Prod.mk.injEq] at hf
    exact ⟨rfl, hf.1 ▸ hi⟩
  | child => cases habove

/-- Where something is read in a callback: inside its body and, on the way down, through no
function that is not in a position for it, no class outside a namespace, and no call that keeps its
arguments to itself. -/
structure Within (r : Reader) (root : Node) (s : Site) : Prop where
  below : Site.Below root s
  body : ∃ inner i, s.above = inner ++ [⟨root, i⟩] ∧ root.fieldIndex? .body = some i
  passable : ∀ inner frame outer, s.above = inner ++ frame :: outer → outer ≠ [] →
    r.Passable ⟨frame.parent, outer⟩
  calls : ∀ frame ∈ s.above, ∀ shape, r.shapeOf? frame.parent = some shape →
    shape.sealsArguments = false

section

variable (hliteral : root.isFunctionLiteral) (hregular : ∀ n ∈ root.nodes, n.Regular)

include hliteral hregular

/-- The nodes between a callback and what is read inside: the body of the callback is entered first,
then only functions in the positions for it, and no classes but those in namespaces. -/
theorem Reaches.passable (h : r.Reaches root m s) :
    ∀ inner frame outer, s.above = inner ++ frame :: outer →
      (outer = [] → frame.parent = root ∧ root.fieldIndex? .body = some frame.index) ∧
      (outer ≠ [] → r.Passable ⟨frame.parent, outer⟩) := by
  induction h with
  | root => simp [Site.root]
  | @child m m' s i c hs hc hp ih =>
    intro inner frame outer habove
    cases inner with
    | nil =>
      obtain ⟨rfl, rfl⟩ := List.cons.inj habove
      exact ⟨fun houter => hs.body_of_above_eq_nil houter hp, fun houter =>
        (hs.standing hliteral hregular).passable (steps_of_passage hp) houter⟩
    | cons first inner => exact ih inner frame outer (List.cons.inj habove).2

/-- The calls around what is read leave their arguments open. -/
theorem Reaches.calls_open (h : r.Reaches root m s) :
    ∀ frame ∈ s.above.tail, ∀ shape, r.shapeOf? frame.parent = some shape →
      shape.sealsArguments = false := by
  induction h with
  | root => nofun
  | @child m m' s i c hs hc hp ih =>
    intro frame hframe shape hshape
    rw [List.tail_cons] at hframe
    obtain ⟨node, above⟩ := s
    cases above with
    | nil => cases hframe
    | cons first rest =>
      rcases List.mem_cons.1 hframe with rfl | hframe
      · obtain rfl := (hs.standing hliteral hregular).call frame rfl shape hshape
        cases steps_of_passage hp with
        | argument _ hopen => exact hopen
        | unwrap hm | within hm | arguments hm | body hm | clause hm => simp at hm
      · exact ih frame hframe shape hshape

theorem Reaches.within (h : r.Reaches root m s) (hm : m.makes) : r.Within root s := by
  have hpassable := h.passable hliteral hregular
  have hcalls := h.calls_open hliteral hregular
  have hcall := (h.standing hliteral hregular).call
  refine ⟨h.site_below, ?_, fun inner frame outer habove => (hpassable inner frame outer habove).2,
    ?_⟩
  · rcases List.eq_nil_or_concat s.above with habove | ⟨inner, frame, habove⟩
    · cases h with
      | root => cases hm
      | child => cases habove
    · rw [List.concat_eq_append] at habove
      obtain ⟨rfl, hi⟩ := (hpassable inner frame [] habove).1 rfl
      exact ⟨inner, frame.index, habove, hi⟩
  · intro frame hframe shape hshape
    cases habove : s.above with
    | nil => simp [habove] at hframe
    | cons first rest =>
      rw [habove] at hframe hcalls hcall
      rcases List.mem_cons.1 hframe with rfl | hframe
      · -- right below a call there are only its arguments, where nothing is made
        rw [hcall frame rfl shape hshape] at hm
        cases hm
      · exact hcalls frame hframe shape hshape

end

end Reader

end FlowShape
