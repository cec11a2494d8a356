import FlowShape.Proofs.Outline.Inside
import FlowShape.Proofs.Reading.Passage

/-!
# Reading one node

What reading does at one node, in any role: it finds what it finds in the children, or a single new
outline around that, or a leaf. The children are taken in their order if the fields of the node
stand in the order in which they are read. What holds of a whole reading follows from this by
induction on the tree.
-/

namespace FlowShape

/-- What is found in a node is built from what is found in its children. -/
inductive Built (n : Node) : Bool → List Outline → List Outline → Prop
  | pass (os : List Outline) : Built n false os os
  | leaf (l : Leaf) : Built n l.isStep [] [.leaf n l]
  /-- One outline more, around all but the first outlines. -/
  | wrap (os : List Outline) (o : Outline) : o.origin = n → !o.isLeaf →
      Built n false (os ++ o.inside) (os ++ [o])

namespace Built

variable {n : Node} {o : Outline} {os : List Outline}

theorem of_leaf {l : Leaf} {isStep : Bool} (h : o = .leaf n l) (hstep : l.isStep = isStep) :
    Built n isStep [] [o] := by
  subst h hstep
  exact .leaf l

theorem of_inside (horigin : o.origin = n) (hleaf : o.isLeaf = false) (hinside : o.inside = os) :
    Built n false os [o] := by
  subst hinside
  exact .wrap [] o horigin (by simp [hleaf])

end Built

namespace Reader

variable {r : Reader} {m : Mode} {n : Node}

/-! ## What is found in the children -/

theorem inner_congr {m' : Mode} (h : ∀ i c, r.passage m n i c = r.passage m' n i c) :
    r.inner m n = r.inner m' n := by
  simp only [inner, h]

theorem inner_eq_nil (h : ∀ i c, ∀ m', r.passage m n i c ≠ .enters m') : r.inner m n = [] := by
  have hnil : r.inner m n = n.collect fun _ _ => [] := by
    refine Node.collect_congr fun i c _ => ?_
    cases hp : r.passage m n i c with
    | enters m' => exact absurd hp (h i c m')
    | overlooks | seals => rfl
  rw [hnil]
  simp [Node.collect]

theorem inner_of_rank (mode? : Node → Nat → Option Mode)
    (h : ∀ i c, r.passage m n i c = .ofRank n i c (mode? c)) :
    r.inner m n =
      n.parts.zipIdx.flatMap fun (c, j) => ((mode? c j).map (r.read · c)).getD [] := by
  rw [← n.collect_rank fun j c => ((mode? c j).map (r.read · c)).getD []]
  refine Node.collect_congr fun i c _ => ?_
  rw [h, Passage.ofRank, Passage.lift_ofMode?]
  split <;> rfl

theorem inner_of_parts (mode? : Node → Option Mode)
    (h : ∀ i c, r.passage m n i c = .ofRank n i c fun _ => mode? c) :
    r.inner m n = n.parts.flatMap fun c => ((mode? c).map (r.read · c)).getD [] := by
  rw [inner_of_rank (fun c _ => mode? c) h]
  exact Node.flatMap_zipIdx_fst n.parts 0 fun c => ((mode? c).map (r.read · c)).getD []

theorem inner_of_rank_eq {m' : Mode} {k : Nat}
    (h : ∀ i c, r.passage m n i c = .ofRank n i c fun j => if j = k then some m' else none) :
    r.inner m n = n.parts[k]?.toList.flatMap (r.read m') := by
  have hat := Node.flatMap_zipIdx_at n.parts (List.pairwise_singleton (· < ·) k)
    (g := fun j c => ((if j = k then some m' else none).map (r.read · c)).getD [])
    (by simp +contextual)
  rw [inner_of_rank (fun _ j => if j = k then some m' else none) h, hat]
  simp

theorem inner_of_field {table : List (Field × Mode)}
    (h : ∀ i c, r.passage m n i c = .ofField n i table) :
    r.inner m n = n.collect (n.byField (table.map fun p => (p.1, r.read p.2))) := by
  refine Node.collect_congr fun i c _ => ?_
  rw [h, Passage.ofField, Passage.lift_ofMode?, Node.byField, List.find?_map, Option.map_map,
    Option.map_map]
  rfl

theorem inner_of_unwrap (h : ∀ i c, r.passage m n i c = unwrapPassage n i c m) :
    r.inner m n = n.firstPart?.toList.flatMap (r.read m) := by
  rw [inner_of_rank_eq h, Node.firstPart?, List.head?_eq_getElem?]

/-- The outlines found in the children of a node, in the order in which they are read. -/
structure FoundInside (r : Reader) (m : Mode) (n : Node) (os : List Outline) : Prop where
  perm : os.Perm (r.inner m n)
  eq : n.FieldsInOrder → os = r.inner m n

theorem FoundInside.of_eq {os : List Outline} (h : os = r.inner m n) : FoundInside r m n os :=
  ⟨.of_eq h, fun _ => h⟩

theorem FoundInside.of_field {table : List (Field × Mode)}
    (h : ∀ i c, r.passage m n i c = .ofField n i table) (hnodup : (table.map (·.1)).Nodup)
    (horder : n.FieldsInOrder → (table.map (·.1)).Pairwise n.FieldBefore) :
    FoundInside r m n (table.flatMap fun p => (n.inField p.1).flatMap (r.read p.2)) := by
  have hrows : ((table.map fun p => (p.1, r.read p.2)).map (·.1)) = table.map (·.1) := by
    simp
  have hflat : (table.map fun p => (p.1, r.read p.2)).flatMap
      (fun p => (n.inField p.1).flatMap p.2) =
      table.flatMap fun p => (n.inField p.1).flatMap (r.read p.2) := by
    rw [List.flatMap_map]
  constructor
  · rw [inner_of_field h, ← hflat]
    exact (Node.collect_byField_perm (hrows ▸ hnodup)).symm
  · intro hn
    rw [inner_of_field h, ← hflat]
    exact (Node.collect_byField (hrows ▸ hnodup) (hrows ▸ horder hn)).symm

theorem inner_of_one_field {f : Field} {m' : Mode}
    (h : ∀ i c, r.passage m n i c = .ofField n i [(f, m')]) :
    r.inner m n = (n.inField f).flatMap (r.read m') := by
  rw [inner_of_field h, Node.collect_byField (by simp) (by simp)]
  simp

/-- What is found in a node is built from what is found in its children. -/
def ReadsInside (r : Reader) (m : Mode) (n : Node) : Prop :=
  ∃ os, FoundInside r m n os ∧ Built n (r.isStepAs m n) os (r.read m n)

/-! ## Roles that only pass on -/

theorem read_eq (r : Reader) (m : Mode) (n : Node) : r.read m n =
    match m with
    | .statement => r.statement n
    | .expression => r.expression n
    | .callback => r.callback n
    | .body => if n.kind = .statementBlock then r.statement n else r.expression n
    | .argument => r.argument n
    | .element => r.element n
    | .keyedBranch key => [implicitStep n key (r.source.operationCallee n)]
    | m => r.inner m n := by
  simp only [← readFrom_children]
  cases n
  cases m <;> exact read.eq_def r _ _

@[simp] theorem read_statement : r.read .statement = r.statement :=
  funext (r.read_eq .statement)

@[simp] theorem read_expression : r.read .expression = r.expression :=
  funext (r.read_eq .expression)

@[simp] theorem read_callback : r.read .callback = r.callback :=
  funext (r.read_eq .callback)

@[simp] theorem read_argument : r.read .argument = r.argument :=
  funext (r.read_eq .argument)

@[simp] theorem read_element : r.read .element = r.element :=
  funext (r.read_eq .element)

theorem read_body (n : Node) : r.read .body n =
    if n.kind = .statementBlock then r.statement n else r.expression n :=
  r.read_eq .body n

theorem read_keyedBranch (key : String) (n : Node) : r.read (.keyedBranch key) n =
    [implicitStep n key (r.source.operationCallee n)] :=
  r.read_eq (.keyedBranch key) n

theorem read_of_passesOn (h : m.passesOn) (n : Node) : r.read m n = r.inner m n := by
  rw [read_eq]
  cases m <;> first | rfl | cases h

theorem readsInside_of_passesOn (h : m.passesOn) (n : Node) : ReadsInside r m n := by
  have hstep : r.isStepAs m n = false := by cases m <;> first | rfl | cases h
  refine ⟨_, .of_eq rfl, ?_⟩
  rw [hstep, read_of_passesOn h]
  exact .pass _

theorem read_declarator (n : Node) :
    r.read .declarator n = (n.inField .value).flatMap r.expression := by
  rw [read_of_passesOn rfl, inner_of_one_field fun _ _ => rfl]
  simp only [read_expression]

theorem read_handler (n : Node) : r.read .handler n = (n.inField .body).flatMap r.statement := by
  rw [read_of_passesOn rfl, inner_of_one_field fun _ _ => rfl]
  simp only [read_statement]

theorem read_elseClause (n : Node) : r.read .elseClause n = n.parts.flatMap r.statement := by
  rw [read_of_passesOn rfl, inner_of_parts (fun _ => some .statement) fun _ _ => rfl]
  simp only [Option.map_some, Option.getD_some, read_statement]

theorem read_case (n : Node) : r.read .case n = (n.partsBut .value).flatMap r.statement := by
  rw [read_of_passesOn rfl, ← Node.collect_partsBut]
  refine Node.collect_congr fun i c _ => ?_
  simp only [passage, Passage.lift_ofMode?]
  split <;> simp

theorem read_switchBody (n : Node) : r.read .switchBody n =
    (n.parts.filter fun c => c.kind == .switchCase || c.kind == .switchDefault).flatMap
      fun c => (c.partsBut .value).flatMap r.statement := by
  rw [read_of_passesOn rfl, inner_of_parts (fun c =>
    if c.kind == .switchCase || c.kind == .switchDefault then some .case else none) fun _ _ => rfl]
  induction n.parts with
  | nil => rfl
  | cons c cs ih =>
    rw [List.flatMap_cons, ih, List.filter_cons]
    split <;> simp [read_case]

/-- A role that sees through wrappers reads what is in them. -/
theorem read_eq_inner_unwrap (hm : m.passesOn)
    (hp : ∀ n : Node, n.kind.isTransparent → ∀ i c, r.passage m n i c = unwrapPassage n i c m)
    (n : Node) : r.read m n = r.inner m n.unwrap := by
  induction n using Node.childrenInduction with
  | h n ih =>
    rw [read_of_passesOn hm]
    cases hc : n.firstPart? with
    | none => rw [Node.unwrap_of_bare hc]
    | some c =>
      by_cases ht : n.kind.isTransparent
      · rw [inner_of_unwrap (hp n ht), Node.unwrap_of_firstPart? ht hc,
          ← ih c (Node.mem_children_of_firstPart? hc), hc]
        simp
      · rw [Node.unwrap_of_not_transparent (by simpa using ht)]

theorem read_branches (n : Node) : r.read .branches n =
    if n.unwrap.kind = .array then n.unwrap.parts.flatMap r.element else [] := by
  rw [read_eq_inner_unwrap rfl fun n ht i c => by simp [passage, ht]]
  by_cases ht : n.unwrap.kind.isTransparent
  · have hk : n.unwrap.kind ≠ .array := fun hk => by simp [hk, Kind.isTransparent] at ht
    rw [inner_of_unwrap (by simp [passage, ht]), Node.firstPart?_unwrap ht, if_neg hk]
    rfl
  · rw [inner_of_parts (fun _ => if n.unwrap.kind = .array then some .element else none)
      (by simp [passage, ht])]
    split <;> simp

theorem read_entry {n : Node} {key : String} {value : Node} (hk : n.kind = .pair)
    (h : r.source.entry? n = some (key, value)) :
    r.read .entry n = r.read (.keyedBranch key) value := by
  simp only [Source.entry?, hk] at h
  obtain ⟨k, hkey, h⟩ := Option.bind_eq_some_iff.1 h
  obtain ⟨v, hvalue, h⟩ := Option.bind_eq_some_iff.1 h
  simp only [Option.pure_def, Option.some.injEq, Prod.mk.injEq] at h
  obtain ⟨rfl, rfl⟩ := h
  have hpassage (i : Nat) (c : Node) : r.passage .entry n i c =
      .ofField n i [(.value, .keyedBranch (r.source.propertyKey k))] := by
    simp [passage, Node.inField, hkey]
  rw [read_of_passesOn rfl, inner_of_one_field hpassage]
  simp [Node.inField, hvalue]

/-- Entries other than pairs stand for themselves. -/
theorem eq_of_entry? {n : Node} {p : String × Node} (hk : n.kind ≠ .pair)
    (h : r.source.entry? n = some p) : p.2 = n := by
  unfold Source.entry? at h
  split at h
  · contradiction
  · cases h
    rfl
  · obtain ⟨name, -, h⟩ := Option.bind_eq_some_iff.1 h
    cases h
    rfl
  · cases h

theorem read_keyed (n : Node) : r.read .keyed n =
    if n.unwrap.kind = .object then
      (r.source.entries n.unwrap).flatMap fun p => r.read (.keyedBranch p.1) p.2
    else [] := by
  rw [read_eq_inner_unwrap rfl fun n ht i c => by simp [passage, ht]]
  by_cases ht : n.unwrap.kind.isTransparent
  · have hk : n.unwrap.kind ≠ .object := fun hk => by simp [hk, Kind.isTransparent] at ht
    rw [inner_of_unwrap (by simp [passage, ht]), Node.firstPart?_unwrap ht, if_neg hk]
    rfl
  · rw [inner_of_parts (fun c => if n.unwrap.kind = .object then
      (r.source.entry? c).map fun p => if c.kind = .pair then .entry else .keyedBranch p.1
      else none) (by simp [passage, ht])]
    split
    · rw [Source.entries, List.filterMap_eq_flatMap_toList, List.flatMap_assoc]
      refine List.flatMap_congr fun c _ => ?_
      cases he : r.source.entry? c with
      | none => rfl
      | some p =>
        by_cases hk : c.kind = .pair
        · simpa [hk] using read_entry hk he
        · have hvalue : p.2 = c := eq_of_entry? hk he
          simp [hk, hvalue]
    · simp

/-! ## Calls -/

/-- What is found in the arguments of a call. -/
def readArguments (r : Reader) (shape : CallShape) (arguments : List Node) : List Outline :=
  arguments.zipIdx.flatMap fun (a, j) =>
    ((shape.argumentMode? arguments j).map (r.read · a)).getD []

theorem readArguments_of_none {shape : CallShape} {arguments : List Node}
    (h : ∀ j, shape.argumentMode? arguments j = none) : r.readArguments shape arguments = [] := by
  simp [readArguments, h]

theorem readArguments_of_some {shape : CallShape} {arguments : List Node} {m' : Mode} {k : Nat}
    (h : ∀ j, shape.argumentMode? arguments j = if j = k then some m' else none) :
    r.readArguments shape arguments = arguments[k]?.toList.flatMap (r.read m') := by
  have hat := Node.flatMap_zipIdx_at arguments (List.pairwise_singleton (· < ·) k)
    (g := fun j a => ((shape.argumentMode? arguments j).map (r.read · a)).getD [])
    (by simp +contextual [h])
  rw [readArguments, hat]
  simp [h]

theorem argumentMode?_of_seals {shape : CallShape} (h : shape.sealsArguments)
    (arguments : List Node) (j : Nat) : shape.argumentMode? arguments j = none := by
  unfold CallShape.argumentMode?
  split <;> simp_all [CallShape.sealsArguments, CallShape.isStep]

theorem flatMap_read_arguments (shape : CallShape) (n : Node) :
    (n.inField .arguments).flatMap (r.read (.arguments shape)) =
      r.readArguments shape n.callArguments := by
  unfold Node.inField Node.callArguments
  cases n.child? .arguments with
  | none => rfl
  | some list =>
    have hread : r.read (.arguments shape) list = r.inner (.arguments shape) list :=
      read_of_passesOn rfl list
    simp only [Option.toList_some, List.flatMap_singleton, hread]
    by_cases hk : list.kind = .arguments
    · rw [if_pos hk]
      cases hs : shape.sealsArguments with
      | true =>
        rw [readArguments_of_none (argumentMode?_of_seals hs _)]
        exact inner_eq_nil (by simp [passage, hk, hs])
      | false =>
        exact inner_of_rank (fun _ => shape.argumentMode? list.parts) (by simp [passage, hk, hs])
    · rw [if_neg hk]
      exact inner_eq_nil (by simp [passage, hk])

/-- A method that runs a callback encloses what is found in its arguments. -/
theorem readArguments_enclosed {shape : CallShape} {n : Node}
    (h : ∀ j, shape.argumentMode? n.callArguments j = CallShape.enclosedMode? n.callArguments j) :
    r.readArguments shape n.callArguments = r.enclosed n := by
  rw [enclosed]
  split
  · next f hf =>
    obtain ⟨hfunction, k, hk, hget, hbefore⟩ := List.find?_eq_some_iff_getElem.1 hf
    have hindex : n.callArguments.findIdx? Node.isFunctionLiteral = some k :=
      List.findIdx?_eq_some_iff_getElem.2
        ⟨hk, by simpa [hget] using hfunction, by simpa using hbefore⟩
    have hmode (j : Nat) : shape.argumentMode? n.callArguments j =
        if j = k then some .callback else none := by
      simp [h, CallShape.enclosedMode?, hindex]
    rw [readArguments_of_some hmode]
    simp [List.getElem?_eq_getElem hk, hget]
  · next hf =>
    have hindex : n.callArguments.findIdx? Node.isFunctionLiteral = none := by
      simpa [List.find?_eq_none] using hf
    simp only [readArguments, h, CallShape.enclosedMode?, hindex]
    cases n.callArguments with
    | nil => rfl
    | cons a as =>
      have hrest : ((as.zipIdx 1).flatMap fun p =>
          ((if p.2 = 0 then none else some Mode.expression).map (r.read · p.1)).getD []) =
          (as.zipIdx 1).flatMap fun p => r.expression p.1 := by
        refine List.flatMap_congr fun p hp => ?_
        have := (List.mem_zipIdx hp).1
        simp [show p.2 ≠ 0 by omega]
      simpa using hrest.trans (Node.flatMap_zipIdx_fst as 1 r.expression)

/-- A combinator gathers what is found in its branches. -/
theorem readArguments_combinator (combinator : Combinator) (n : Node) :
    r.readArguments (.helper (.combinator combinator)) n.callArguments =
    (match n.branchElements? with
      | some elements => elements.map r.element
      | none => (n.argumentAt 0).map r.argument).flatten := by
  rw [readArguments_of_some fun _ => rfl, Node.branchElements?, Node.argumentAt]
  cases n.callArguments with
  | nil => rfl
  | cons a as =>
    by_cases ha : a.unwrap.kind = .array
    · simp [ha, read_branches, List.flatMap]
    · simp [ha]

/-- A method with an object for its arguments gathers what is found in the entries. -/
theorem readArguments_keyed {n object : Node} (h : n.leadingObject? = some object) :
    r.readArguments (.method .parallel) n.callArguments =
      (r.source.entries object).flatMap fun p => r.read (.keyedBranch p.1) p.2 := by
  obtain ⟨hhead, hkind⟩ := Option.filter_eq_some_iff.1 h
  obtain ⟨a, ha, rfl⟩ := Option.map_eq_some_iff.1 hhead
  simp only [beq_iff_eq] at hkind
  have hmode (j : Nat) : CallShape.argumentMode? (.method .parallel) n.callArguments j =
      if j = 0 then some .keyed else none := by
    simp [CallShape.argumentMode?, ha, hkind]
  rw [readArguments_of_some hmode, ← List.head?_eq_getElem?, ha]
  simp [read_keyed, hkind]

/-- A call is found around what is found in its arguments. -/
theorem built_call (shape : CallShape) (n : Node) :
    Built n shape.isStep (r.readArguments shape n.callArguments) (r.call shape n) := by
  match shape with
  | .step | .method .retry | .method .withTimeout | .method (.stream _) | .sagaStep _
  | .workflowRef _ =>
    rw [call, readArguments_of_none (argumentMode?_of_seals rfl _)]
    exact .of_leaf rfl rfl
  | .method .parallel =>
    rw [call]
    split
    · next object h =>
      rw [readArguments_keyed h]
      refine .of_inside rfl rfl ?_
      simp [keyedParallel, Outline.inside, read_keyedBranch, List.flatMap]
    · next h =>
      have hmode (j : Nat) : CallShape.argumentMode? (.method .parallel) n.callArguments j =
          CallShape.enclosedMode? n.callArguments j := by
        cases ha : n.callArguments.head? <;>
          simp_all [CallShape.argumentMode?, Node.leadingObject?]
      rw [readArguments_enclosed hmode]
      exact .of_inside rfl rfl rfl
  | .method .race =>
    rw [call, readArguments_enclosed fun _ => rfl]
    exact .of_inside rfl rfl rfl
  | .helper (.conditional helper) =>
    rw [call, readArguments_of_some fun _ => rfl]
    simp only [List.flatMap_subtype, List.unattach_attach]
    exact .of_inside rfl rfl (by simp [Outline.inside, Node.argumentAt])
  | .helper (.combinator combinator) =>
    rw [call, readArguments_combinator]
    refine .of_inside rfl rfl (congrArg List.flatten ?_)
    split <;> simp_all
  | .iteration kind =>
    rw [call, readArguments_of_some fun _ => rfl]
    simp only [List.map_subtype, List.unattach_attach, Node.argumentAt]
    cases n.callArguments[0]? with
    | none => exact .pass []
    | some f => exact .of_inside rfl rfl (by simp [Outline.inside])

/-! ## Statements -/

theorem ReadsInside.of_pass (h : FoundInside r m n (r.read m n)) (hstep : r.isStepAs m n = false) :
    ReadsInside r m n :=
  ⟨_, h, hstep ▸ .pass _⟩

theorem readsInside_first (h : r.statement n = (n.parts.take 1).flatMap r.expression)
    (hp : ∀ i c, r.passage .statement n i c = unwrapPassage n i c .expression) :
    ReadsInside r .statement n := by
  refine .of_pass (.of_eq ?_) rfl
  rw [inner_of_rank_eq hp, read_statement, h, List.take_one, List.head?_eq_getElem?,
    read_expression]

theorem readsInside_declaration (h : r.statement n = n.declaredValues.flatMap r.expression)
    (hp : ∀ i c, r.passage .statement n i c = .ofRank n i c fun _ => some .declarator) :
    ReadsInside r .statement n := by
  refine .of_pass (.of_eq ?_) rfl
  rw [inner_of_parts _ hp, read_statement, h, Node.declaredValues,
    List.filterMap_eq_flatMap_toList, List.flatMap_assoc]
  exact List.flatMap_congr fun c _ => (read_declarator c).symm

theorem readsInside_loop {repetition : Node → Repetition}
    (h : r.statement n = (n.inField .body).map fun body =>
      .loop n (repetition body) (r.statement body))
    (hp : ∀ i c, r.passage .statement n i c = .ofField n i [(.body, .statement)]) :
    ReadsInside r .statement n := by
  refine ⟨_, .of_eq rfl, ?_⟩
  rw [inner_of_one_field hp, read_statement, h, Node.inField]
  cases n.child? .body with
  | none => exact .pass []
  | some body => exact .of_inside rfl rfl (by simp [Outline.inside])

theorem readsInside_if {condition : String}
    (h : r.statement n = [.ifElse n condition ((n.inField .consequence).flatMap r.statement)
      ((n.child? .alternative).map fun clause => clause.parts.flatMap r.statement)])
    (hp : ∀ i c, r.passage .statement n i c =
      .ofField n i [(.consequence, .statement), (.alternative, .elseClause)]) :
    ReadsInside r .statement n := by
  refine ⟨_, .of_field hp (by simp) fun hn => (List.pairwise_cons.1 hn.condition).2, ?_⟩
  rw [read_statement, h]
  refine .of_inside rfl rfl ?_
  cases ha : n.child? .alternative <;>
    simp [Outline.inside, Node.inField, ha, read_elseClause]

theorem readsInside_switch {expression : String} {value : Node → Option String}
    (h : r.statement n = (n.inField .body).map fun _ =>
      .switch n expression (n.switchCases.map fun c =>
        ⟨value c, c.kind == .switchDefault, (c.partsBut .value).flatMap r.statement⟩))
    (hp : ∀ i c, r.passage .statement n i c = .ofField n i [(.body, .switchBody)]) :
    ReadsInside r .statement n := by
  refine ⟨_, .of_eq rfl, ?_⟩
  rw [inner_of_one_field hp, read_statement, h, Node.switchCases, Node.inField]
  cases n.child? .body with
  | none => exact .pass []
  | some body =>
    refine .of_inside rfl rfl ?_
    simp [Outline.inside, read_switchBody, List.flatMap_map]

theorem readsInside_try (h : r.statement n = n.tryBlocks.flatMap r.statement)
    (hp : ∀ i c, r.passage .statement n i c =
      .ofField n i [(.body, .statement), (.handler, .handler), (.finalizer, .handler)]) :
    ReadsInside r .statement n := by
  have hfound := FoundInside.of_field hp (by simp) fun hn => hn.body
  have hread : r.read .statement n = [(Field.body, Mode.statement), (.handler, .handler),
      (.finalizer, .handler)].flatMap fun p => (n.inField p.1).flatMap (r.read p.2) := by
    have hhandler : r.read .handler = fun c => (c.inField .body).flatMap r.statement :=
      funext read_handler
    rw [read_statement, h]
    simp [Node.tryBlocks, List.flatMap_assoc, hhandler]
  exact .of_pass (hread ▸ hfound) rfl

/-- Statements without a rule of their own are unknown or say nothing. -/
theorem readsInside_other (h : r.statement n = if n.kind.isInert then [] else [r.unknown n])
    (hp : ∀ i c, r.passage .statement n i c = outside n c) : ReadsInside r .statement n := by
  have hinner : r.inner .statement n = [] := by
    refine inner_eq_nil fun i c m' => ?_
    rw [hp, outside]
    split <;> simp
  refine ⟨_, .of_eq rfl, ?_⟩
  rw [hinner, read_statement, h]
  split
  · exact .pass []
  · exact .of_leaf rfl rfl

theorem readsInside_statement (r : Reader) (n : Node) : ReadsInside r .statement n := by
  cases hk : n.kind
  case expressionStatement | returnStatement | throwStatement =>
    exact readsInside_first (by rw [statement]; simp [hk])
      (by simp [passage, statementPassage, hk, unwrapPassage])
  case lexicalDeclaration | variableDeclaration =>
    exact readsInside_declaration (by rw [statement]; simp [hk])
      (by simp [passage, statementPassage, hk])
  case statementBlock =>
    refine .of_pass (.of_eq ?_) rfl
    rw [inner_of_parts (fun _ => some .statement) (by simp [passage, statementPassage, hk]),
      read_statement]
    conv_lhs => rw [statement]
    simp [hk]
  case ifStatement =>
    exact readsInside_if (by rw [statement]; simp [hk]; rfl)
      (by simp [passage, statementPassage, hk])
  case forStatement | forInStatement | whileStatement | doStatement =>
    exact readsInside_loop
      (by rw [statement]; simp only [hk, List.map_subtype, List.unattach_attach]; rfl)
      (by simp [passage, statementPassage, hk])
  case switchStatement =>
    exact readsInside_switch
      (by
        rw [statement]
        simp only [hk, List.map_subtype, List.flatMap_subtype, List.unattach_attach]
        rfl)
      (by simp [passage, statementPassage, hk])
  case tryStatement =>
    exact readsInside_try (by rw [statement]; simp [hk]) (by simp [passage, statementPassage, hk])
  case labeledStatement =>
    have hp (i : Nat) (c : Node) :
        r.passage .statement n i c = .ofField n i [(.body, .statement)] := by
      simp [passage, statementPassage, hk]
    refine .of_pass (.of_eq ?_) rfl
    rw [inner_of_one_field hp, read_statement]
    conv_lhs => rw [statement]
    simp [hk]
  all_goals
    exact readsInside_other (by rw [statement]; simp [hk]) (by simp [passage, statementPassage, hk])

/-! ## Expressions -/

theorem ReadsInside.congr {m' : Mode} (h : ReadsInside r m' n) (hread : r.read m n = r.read m' n)
    (hp : ∀ i c, r.passage m n i c = r.passage m' n i c)
    (hstep : r.isStepAs m n = r.isStepAs m' n) : ReadsInside r m n := by
  obtain ⟨os, ⟨hperm, heq⟩, hbuilt⟩ := h
  refine ⟨os, ⟨inner_congr hp ▸ hperm, inner_congr hp ▸ heq⟩, ?_⟩
  rwa [hread, hstep]

theorem shapeOf?_eq_none (h : n.kind ≠ .callExpression) : r.shapeOf? n = none := if_neg h

/-- Wrappers hold what their first part holds. -/
theorem readsInside_of_transparent (hp : ∀ i c, r.passage m n i c = unwrapPassage n i c m)
    (hsome : ∀ c, n.firstPart? = some c → r.read m n = r.read m c)
    (hnone : n.firstPart? = none → r.read m n = []) (hstep : r.isStepAs m n = false) :
    ReadsInside r m n := by
  refine .of_pass (.of_eq ?_) hstep
  rw [inner_of_unwrap hp]
  cases hc : n.firstPart? with
  | none => simpa using hnone hc
  | some c => simpa using hsome c hc

theorem readsInside_callback (r : Reader) (n : Node) : ReadsInside r .callback n := by
  have hp (i : Nat) (c : Node) : r.passage .callback n i c = .ofField n i [(.body, .body)] := rfl
  refine .of_pass (.of_eq ?_) rfl
  rw [inner_of_one_field hp, read_callback, callback]
  simp only [List.flatMap_subtype, List.unattach_attach]
  exact List.flatMap_congr fun body _ => (read_body body).symm

theorem expression_eq (r : Reader) (n : Node) : r.expression n =
    if n.unwrap.isFunctionScope ∨ n.unwrap.kind = .classExpression then []
    else if n.unwrap.kind = .ternaryExpression then
      (n.unwrap.inField .condition).flatMap r.expression ++
        [.ternary n.unwrap (r.source.headerText n.unwrap .condition)
          ((n.unwrap.inField .consequence).flatMap r.expression)
          ((n.unwrap.inField .alternative).flatMap r.expression)]
    else
      match r.shapeOf? n.unwrap with
      | none => n.unwrap.parts.flatMap r.expression
      | some shape => r.call shape n.unwrap := by
  conv_lhs => rw [expression]
  simp only [List.flatMap_subtype, List.unattach_attach]
  rfl

theorem expression_congr {n' : Node} (h : n.unwrap = n'.unwrap) :
    r.expression n = r.expression n' := by
  rw [expression_eq, expression_eq r n', h]

theorem expression_of_bare (ht : n.kind.isTransparent) (h : n.firstPart? = none) :
    r.expression n = [] := by
  have hparts : n.parts = [] := List.head?_eq_none_iff.1 h
  rw [expression_eq, Node.unwrap_of_bare h]
  cases hk : n.kind <;> simp_all [shapeOf?, Kind.isTransparent]

theorem readsInside_ternary (h : n.kind = .ternaryExpression) : ReadsInside r .expression n := by
  have ht : n.kind.isTransparent = false := by simp [h, Kind.isTransparent]
  have hf : n.isFunctionScope = false := by
    simp [Node.isFunctionScope, h, Kind.isFunctionScope, Kind.isFunctionLiteral]
  have hp (i : Nat) (c : Node) : r.passage .expression n i c = .ofField n i
      [(.condition, .expression), (.consequence, .expression), (.alternative, .expression)] := by
    simp [passage, expressionPassage, h, hf, Kind.isTransparent]
  have hstep : r.isStepAs .expression n = false := by
    simp [isStepAs, shapeOf?_eq_none, h]
  refine ⟨_, .of_field hp (by simp) fun hn => hn.condition, ?_⟩
  rw [hstep, read_expression, expression_eq, Node.unwrap_of_not_transparent ht]
  simpa [hf, h, Outline.inside] using Built.wrap (n := n)
    ((n.inField .condition).flatMap r.expression)
    (.ternary n (r.source.headerText n .condition) ((n.inField .consequence).flatMap r.expression)
      ((n.inField .alternative).flatMap r.expression)) rfl rfl

/-- Nothing is read in functions and classes. -/
theorem readsInside_closed (ht : n.kind.isTransparent = false)
    (h : n.isFunctionScope ∨ n.kind = .classExpression) : ReadsInside r .expression n := by
  have hk : n.kind ≠ .callExpression := by
    intro hk
    simp [Node.isFunctionScope, hk, Kind.isFunctionScope, Kind.isFunctionLiteral] at h
  have hinner : r.inner .expression n = [] := by
    refine inner_eq_nil fun i c m' => ?_
    have hp : r.passage .expression n i c = outside n c := by
      simp [passage, expressionPassage, ht, h]
    rw [hp, outside]
    split <;> simp
  refine .of_pass (.of_eq ?_) (by simp [isStepAs, shapeOf?_eq_none hk])
  rw [hinner, read_expression, expression_eq, Node.unwrap_of_not_transparent ht, if_pos h]

theorem readsInside_expression (r : Reader) (n : Node) : ReadsInside r .expression n := by
  by_cases ht : n.kind.isTransparent
  · have hk := Node.kind_ne_callExpression ht
    refine readsInside_of_transparent (by simp [passage, expressionPassage, ht]) ?_ ?_
      (by simp [isStepAs, shapeOf?_eq_none hk])
    · intro c hc
      rw [read_expression]
      exact expression_congr (Node.unwrap_of_firstPart? ht hc)
    · intro hc
      rw [read_expression]
      exact expression_of_bare ht hc
  · simp only [Bool.not_eq_true] at ht
    by_cases hf : n.isFunctionScope ∨ n.kind = .classExpression
    · exact readsInside_closed ht hf
    by_cases hk : n.kind = .ternaryExpression
    · exact readsInside_ternary hk
    have hf' : n.isFunctionScope = false ∧ n.kind ≠ .classExpression := by simpa using hf
    refine ⟨_, .of_eq rfl, ?_⟩
    rw [read_expression, expression_eq, Node.unwrap_of_not_transparent ht, if_neg hf, if_neg hk]
    cases hs : r.shapeOf? n with
    | none =>
      rw [inner_of_parts (fun _ => some .expression)
        (by simp [passage, expressionPassage, ht, hf', hk, hs])]
      simpa [isStepAs, hs] using Built.pass (n := n) (n.parts.flatMap r.expression)
    | some shape =>
      have hp (i : Nat) (c : Node) : r.passage .expression n i c =
          .ofField n i [(.arguments, .arguments shape)] := by
        simp [passage, expressionPassage, ht, hf', hk, hs]
      rw [inner_of_one_field hp, flatMap_read_arguments]
      simpa [isStepAs, hs] using built_call shape n

theorem readsInside_body (r : Reader) (n : Node) : ReadsInside r .body n := by
  by_cases hk : n.kind = .statementBlock
  · have hstep : r.isStepAs .body n = r.isStepAs .statement n := by
      simp [isStepAs, shapeOf?_eq_none, hk]
    exact (readsInside_statement r n).congr (by simp [read_body, hk]) (by simp [passage, hk]) hstep
  · exact (readsInside_expression r n).congr (by simp [read_body, hk]) (by simp [passage, hk]) rfl

theorem argument_eq (r : Reader) (n : Node) : r.argument n =
    if n.unwrap.isFunctionLiteral then r.callback n.unwrap else r.expression n.unwrap := by
  rw [argument]

theorem readsInside_argument (r : Reader) (n : Node) : ReadsInside r .argument n := by
  by_cases ht : n.kind.isTransparent
  · have hk := Node.kind_ne_callExpression ht
    refine readsInside_of_transparent (by simp [passage, argumentPassage, ht]) ?_ ?_
      (by simp [isStepAs, shapeOf?_eq_none hk])
    · intro c hc
      rw [read_argument, argument_eq, argument_eq r c, Node.unwrap_of_firstPart? ht hc]
    · intro hc
      simp [argument_eq, Node.unwrap_of_bare hc, Node.not_isFunctionLiteral ht,
        expression_of_bare ht hc]
  · simp only [Bool.not_eq_true] at ht
    have hunwrap := Node.unwrap_of_not_transparent ht
    by_cases hf : n.isFunctionLiteral
    · have hk : n.kind ≠ .callExpression := fun hk => by
        simp [Node.isFunctionLiteral, hk, Kind.isFunctionLiteral] at hf
      refine (readsInside_callback r n).congr (by simp [argument_eq, hunwrap, hf])
        (by simp [passage, argumentPassage, ht, hf]) ?_
      simp [isStepAs, shapeOf?_eq_none hk]
    · exact (readsInside_expression r n).congr (by simp [argument_eq, hunwrap, hf])
        (by simp [passage, argumentPassage, ht, hf]) rfl

theorem element_eq (r : Reader) (n : Node) : r.element n =
    if n.unwrap.kind = .callExpression ∧ (r.classify n.unwrap).isNone then
      [implicitStep n.unwrap (Text.lastSegment (r.source.calleeOf n.unwrap))
        (r.source.calleeOf n.unwrap)]
    else r.argument n.unwrap := by
  rw [element]

theorem readsInside_element (r : Reader) (n : Node) : ReadsInside r .element n := by
  by_cases ht : n.kind.isTransparent
  · have hk := Node.kind_ne_callExpression ht
    refine readsInside_of_transparent (by simp [passage, ht]) ?_ ?_ (by simp [isStepAs, hk])
    · intro c hc
      rw [read_element, element_eq, element_eq r c, Node.unwrap_of_firstPart? ht hc]
    · intro hc
      simp [element_eq, argument_eq, Node.unwrap_of_bare hc, hk, Node.not_isFunctionLiteral ht,
        expression_of_bare ht hc]
  · simp only [Bool.not_eq_true] at ht
    have hunwrap := Node.unwrap_of_not_transparent ht
    by_cases hc : n.kind = .callExpression ∧ (r.classify n).isNone
    · have hinner : r.inner .element n = [] :=
        inner_eq_nil fun i c m' h => by
          simp only [passage, ht, if_pos hc] at h
          cases h
      refine ⟨_, .of_eq rfl, ?_⟩
      rw [hinner, read_element, element_eq, hunwrap, if_pos hc]
      exact .of_leaf rfl (by simp [isStepAs, Leaf.isStep, hc.1, Option.isNone_iff_eq_none.1 hc.2])
    · refine (readsInside_argument r n).congr
        (by rw [read_element, element_eq, hunwrap, if_neg hc, read_argument])
        (fun i c => by simp only [passage, ht, if_neg hc]; rfl) ?_
      by_cases hk : n.kind = .callExpression
      · cases hs : r.classify n with
        | none => simp [hk, hs] at hc
        | some shape => simp [isStepAs, shapeOf?, hk, hs]
      · simp [isStepAs, shapeOf?, hk]

/-- What reading does at a node, in any role. -/
theorem readsInside (r : Reader) (m : Mode) (n : Node) : ReadsInside r m n := by
  match m with
  | .statement => exact readsInside_statement r n
  | .expression => exact readsInside_expression r n
  | .callback => exact readsInside_callback r n
  | .body => exact readsInside_body r n
  | .argument => exact readsInside_argument r n
  | .element => exact readsInside_element r n
  | .keyedBranch key =>
    have hinner : r.inner (.keyedBranch key) n = [] := inner_eq_nil fun i c m' => nofun
    refine ⟨_, .of_eq rfl, ?_⟩
    rw [hinner, read_keyedBranch]
    exact .of_leaf rfl rfl
  | .branches | .keyed | .entry | .declarator | .elseClause | .handler | .switchBody | .case
  | .arguments _ => exact readsInside_of_passesOn rfl n

end Reader

end FlowShape
