import FlowShape.Proofs.Reading.Descent

/-!
# Where outlines are made

Reading an outline starts at one node and goes on through the children that are entered. `Reaches`
is the set of sites that it gets to, each in its role, and `Makes` lists the outlines that are made
at one node. Every outline that is found in a callback, at any depth, was made at a site that
reading gets to.
-/

namespace FlowShape

/-- The roles in which an outline may be made. -/
def Mode.makes : Mode → Bool
  | .statement | .expression | .body | .argument | .element | .keyedBranch _ => true
  | _ => false

namespace Reader

variable {r : Reader} {m : Mode} {n : Node} {o : Outline}

/-- The outlines that are made at a node. What is inside them is made elsewhere. -/
inductive Makes (r : Reader) (n : Node) : Outline → Prop
  | unknown : r.Makes n (r.unknown n)
  | ifElse (os : List Outline) (ps : Option (List Outline)) : n.kind = .ifStatement →
      r.Makes n (.ifElse n (r.source.headerText n .condition) os ps)
  | forLoop (os : List Outline) : n.kind = .forStatement →
      r.Makes n (.loop n (.ofBound .forLoop none (r.source.countedBound? n)) os)
  | forInLoop {body : Node} (os : List Outline) : n.kind = .forInStatement →
      n.child? .body = some body → r.Makes n (.loop n (.overHeader r.source n body) os)
  | whileLoop (os : List Outline) : n.kind = .whileStatement ∨ n.kind = .doStatement →
      r.Makes n (.loop n (.ofBound .whileLoop none none) os)
  | switch (cases : List (Case Outline)) : n.kind = .switchStatement →
      r.Makes n (.switch n (r.source.headerText n .value) cases)
  | ternary (os ps : List Outline) : n.kind = .ternaryExpression →
      r.Makes n (.ternary n (r.source.headerText n .condition) os ps)
  | call {shape : CallShape} {o : Outline} : r.shapeOf? n = some shape → o ∈ r.call shape n →
      r.Makes n o
  /-- A branch of a combinator that is a step for want of another shape. -/
  | branch : r.shapeOf? n = none → r.Makes n
      (implicitStep n (Text.lastSegment (r.source.calleeOf n)) (r.source.calleeOf n))
  | keyedBranch (key : String) : r.Makes n (implicitStep n key (r.source.operationCallee n))

/-! ## Origins -/

/-- An outline that is found in a node was found in a child, or it stands for the node itself and
all that is inside it was found in the children. -/
theorem mem_inner_or_origin_eq (h : o ∈ r.read m n) :
    o ∈ r.inner m n ∨ o.origin = n ∧ ∀ p ∈ o.inside, p ∈ r.inner m n := by
  obtain ⟨os, hfound, hbuilt⟩ := r.readsInside m n
  generalize r.read m n = ps at h hbuilt
  generalize r.isStepAs m n = isStep at hbuilt
  cases hbuilt with
  | pass => exact .inl (hfound.perm.mem_iff.1 h)
  | leaf l =>
    obtain rfl := List.mem_singleton.1 h
    exact .inr ⟨rfl, nofun⟩
  | wrap os o' horigin _ =>
    rcases List.mem_append.1 h with h | h
    · exact .inl (hfound.perm.mem_iff.1 (List.mem_append_left _ h))
    · obtain rfl := List.mem_singleton.1 h
      exact .inr ⟨horigin, fun p hp => hfound.perm.mem_iff.1 (List.mem_append_right _ hp)⟩

theorem size_origin_le (h : o ∈ r.read m n) : o.origin.size ≤ n.size := by
  induction n using Node.childrenInduction generalizing m with
  | h n ih =>
    rcases mem_inner_or_origin_eq h with h | ⟨h, -⟩
    · obtain ⟨i, c, hc, ho⟩ := Node.mem_collect h
      cases hp : r.passage m n i c with
      | enters m' =>
        rw [hp] at ho
        exact Nat.le_of_lt (Nat.lt_of_le_of_lt (ih c hc ho) (Node.size_lt_of_mem hc))
      | overlooks | seals =>
        rw [hp] at ho
        cases ho
    · exact Nat.le_of_eq (by rw [h])

/-- What is found in smaller nodes was not made here. -/
theorem size_origin_lt {ns : List Node} (hsize : ∀ c ∈ ns, c.size < n.size)
    (h : o ∈ ns.flatMap (r.read m)) : o.origin.size < n.size := by
  obtain ⟨c, hc, ho⟩ := List.mem_flatMap.1 h
  exact Nat.lt_of_le_of_lt (size_origin_le ho) (hsize c hc)

/-! ## What is made at a node -/

theorem makes_of_mem_statement (h : o ∈ r.statement n) :
    o.origin.size < n.size ∨ r.Makes n o := by
  rw [statement] at h
  cases hk : n.kind
  case expressionStatement | returnStatement | throwStatement =>
    simp only [hk, List.flatMap_subtype, List.unattach_attach, ← read_expression] at h
    exact .inl (size_origin_lt (fun c hc => Node.size_lt_of_mem_parts (List.mem_of_mem_take hc)) h)
  case lexicalDeclaration | variableDeclaration =>
    simp only [hk, List.flatMap_subtype, List.unattach_attach, ← read_expression] at h
    exact .inl (size_origin_lt (fun c hc => Node.size_lt_of_mem_declaredValues hc) h)
  case statementBlock =>
    simp only [hk, List.flatMap_subtype, List.unattach_attach, ← read_statement] at h
    exact .inl (size_origin_lt (fun c hc => Node.size_lt_of_mem_parts hc) h)
  case tryStatement =>
    simp only [hk, List.flatMap_subtype, List.unattach_attach, ← read_statement] at h
    exact .inl (size_origin_lt (fun c hc => Node.size_lt_of_mem_tryBlocks hc) h)
  case labeledStatement =>
    simp only [hk, List.flatMap_subtype, List.unattach_attach, ← read_statement] at h
    exact .inl (size_origin_lt (fun c hc => Node.size_lt_of_mem_inField hc) h)
  case ifStatement =>
    simp only [hk, List.mem_singleton] at h
    exact .inr (h ▸ .ifElse _ _ hk)
  case forStatement =>
    simp only [hk, List.map_subtype, List.unattach_attach, List.mem_map] at h
    obtain ⟨body, -, rfl⟩ := h
    exact .inr (.forLoop _ hk)
  case forInStatement =>
    simp only [hk, List.map_subtype, List.unattach_attach, List.mem_map] at h
    obtain ⟨body, hbody, rfl⟩ := h
    exact .inr (.forInLoop _ hk (Option.mem_toList.1 hbody))
  case whileStatement =>
    simp only [hk, List.map_subtype, List.unattach_attach, List.mem_map] at h
    obtain ⟨body, -, rfl⟩ := h
    exact .inr (.whileLoop _ (.inl hk))
  case doStatement =>
    simp only [hk, List.map_subtype, List.unattach_attach, List.mem_map] at h
    obtain ⟨body, -, rfl⟩ := h
    exact .inr (.whileLoop _ (.inr hk))
  case switchStatement =>
    simp only [hk, List.mem_map] at h
    obtain ⟨body, -, rfl⟩ := h
    exact .inr (.switch _ hk)
  all_goals
    simp only [hk, List.mem_ite_nil_left, List.mem_singleton] at h
    exact .inr (h.2 ▸ .unknown)

theorem makes_of_mem_expression (h : o ∈ r.expression n) :
    o.origin.size < n.unwrap.size ∨ r.Makes n.unwrap o := by
  rw [expression_eq] at h
  split at h
  · cases h
  split at h
  · next hk =>
    rcases List.mem_append.1 h with h | h
    · rw [← read_expression] at h
      exact .inl (size_origin_lt (fun c hc => Node.size_lt_of_mem_inField hc) h)
    · exact .inr (List.mem_singleton.1 h ▸ .ternary _ _ hk)
  split at h
  · rw [← read_expression] at h
    exact .inl (size_origin_lt (fun c hc => Node.size_lt_of_mem_parts hc) h)
  · next shape hs => exact .inr (.call hs h)

theorem size_origin_lt_of_mem_callback (h : o ∈ r.callback n) : o.origin.size < n.size := by
  rw [callback] at h
  simp only [List.flatMap_subtype, List.unattach_attach, ← read_body] at h
  exact size_origin_lt (fun c hc => Node.size_lt_of_mem_inField hc) h

theorem makes_of_mem_argument (h : o ∈ r.argument n) :
    o.origin.size < n.unwrap.size ∨ r.Makes n.unwrap o := by
  rw [argument_eq] at h
  split at h
  · exact .inl (size_origin_lt_of_mem_callback h)
  · exact Node.unwrap_unwrap n ▸ makes_of_mem_expression h

theorem makes_of_mem_element (h : o ∈ r.element n) :
    o.origin.size < n.unwrap.size ∨ r.Makes n.unwrap o := by
  rw [element_eq] at h
  split at h
  · next hk =>
    have hs : r.shapeOf? n.unwrap = none := by
      rw [shapeOf?, if_pos hk.1, Option.isNone_iff_eq_none.1 hk.2]
    exact .inr (List.mem_singleton.1 h ▸ .branch hs)
  · exact Node.unwrap_unwrap n ▸ makes_of_mem_argument h

theorem origin_of_mem_call {shape : CallShape} (h : o ∈ r.call shape n) : o.origin = n := by
  unfold call at h
  split at h
  case h_7 => split at h <;> exact List.mem_singleton.1 h ▸ rfl
  case h_11 =>
    simp only [List.map_subtype, List.unattach_attach, List.mem_map] at h
    obtain ⟨f, -, rfl⟩ := h
    rfl
  all_goals exact List.mem_singleton.1 h ▸ rfl

theorem Makes.origin_eq (h : r.Makes n o) : o.origin = n := by
  cases h with
  | call _ h => exact origin_of_mem_call h
  | _ => rfl

/-- What is made in a wrapper was made at the wrapper only if there is nothing to unwrap. -/
theorem Makes.of_unwrap (h : o.origin.size < n.unwrap.size ∨ r.Makes n.unwrap o)
    (horigin : o.origin = n) : r.Makes n o := by
  rcases h with h | h
  · have := n.size_unwrap_le
    rw [horigin] at h
    omega
  · have hn : n.unwrap = n := h.origin_eq.symm.trans horigin
    rwa [hn] at h

theorem Makes.of_mem_read (h : o ∈ r.read m n) (horigin : o.origin = n) :
    o ∈ r.inner m n ∨ m.makes ∧ r.Makes n o := by
  match m with
  | .statement =>
    rw [read_statement] at h
    refine .inr ⟨rfl, (makes_of_mem_statement h).resolve_left ?_⟩
    simp [horigin]
  | .expression =>
    rw [read_expression] at h
    exact .inr ⟨rfl, .of_unwrap (makes_of_mem_expression h) horigin⟩
  | .callback =>
    rw [read_callback] at h
    have := size_origin_lt_of_mem_callback h
    rw [horigin] at this
    omega
  | .body =>
    rw [read_body] at h
    split at h
    · refine .inr ⟨rfl, (makes_of_mem_statement h).resolve_left ?_⟩
      simp [horigin]
    · exact .inr ⟨rfl, .of_unwrap (makes_of_mem_expression h) horigin⟩
  | .argument =>
    rw [read_argument] at h
    exact .inr ⟨rfl, .of_unwrap (makes_of_mem_argument h) horigin⟩
  | .element =>
    rw [read_element] at h
    exact .inr ⟨rfl, .of_unwrap (makes_of_mem_element h) horigin⟩
  | .keyedBranch key =>
    rw [read_keyedBranch, List.mem_singleton] at h
    exact .inr ⟨rfl, h ▸ .keyedBranch key⟩
  | .branches | .keyed | .entry | .declarator | .elseClause | .handler | .switchBody | .case
  | .arguments _ =>
    rw [read_of_passesOn rfl n] at h
    exact .inl h

/-! ## Where reading gets to -/

/-- The sites that reading gets to in the function literal `root`, each in its role. -/
inductive Reaches (r : Reader) (root : Node) : Mode → Site → Prop
  | root : r.Reaches root .callback (.root root)
  | child {m m' : Mode} {s : Site} {i : Nat} {c : Node} : r.Reaches root m s →
      s.node.children[i]? = some c → r.passage m s.node i c = .enters m' →
      r.Reaches root m' ⟨c, ⟨s.node, i⟩ :: s.above⟩

variable {root : Node} {s : Site}

/-- What is found in the children of a site is found at sites that reading gets to. -/
theorem Reaches.exists_child (h : r.Reaches root m s) (ho : o ∈ r.inner m s.node) :
    ∃ m' i c, s.node.children[i]? = some c ∧ r.Reaches root m' ⟨c, ⟨s.node, i⟩ :: s.above⟩ ∧
      o ∈ r.read m' c := by
  obtain ⟨i, c, hc, ho⟩ := Node.getElem?_of_mem_collect ho
  cases hp : r.passage m s.node i c with
  | enters m' =>
    rw [hp] at ho
    exact ⟨m', i, c, hc, h.child hc hp, ho⟩
  | overlooks | seals =>
    rw [hp] at ho
    cases ho

/-- Each outline, at any depth, was made at a site that reading gets to. -/
theorem Reaches.exists_makes (h : r.Reaches root m s) (ho : o ∈ r.read m s.node) {p : Outline}
    (hp : o.Has p) : ∃ m' s', r.Reaches root m' s' ∧ m'.makes ∧ r.Makes s'.node p := by
  obtain ⟨n, above⟩ := s
  induction n using Node.childrenInduction generalizing m above o with
  | h n ih =>
    have hchild {q : Outline} (hq : q ∈ r.inner m n) (hp : q.Has p) :
        ∃ m' s', r.Reaches root m' s' ∧ m'.makes ∧ r.Makes s'.node p := by
      obtain ⟨m', i, c, hc, hreach, hq⟩ := h.exists_child hq
      exact ih c (List.mem_of_getElem? hc) hp _ hreach hq
    rcases mem_inner_or_origin_eq ho with ho' | ⟨horigin, hinside⟩
    · exact hchild ho' hp
    cases hp with
    | self =>
      rcases Makes.of_mem_read ho horigin with ho | ho
      · exact hchild ho (.self _)
      · exact ⟨m, ⟨n, above⟩, h, ho⟩
    | inside hq hp => exact hchild (hinside _ hq) hp

/-! ### The list of the sites -/

mutual

/-- The sites that reading gets to in a node, each in its role. -/
def sitesIn (r : Reader) (m : Mode) (above : List Frame) : Node → List (Mode × Site)
  | .mk label children =>
    (m, ⟨.mk label children, above⟩) :: r.sitesFrom m above (.mk label children) 0 children

/-- The sites in the children of a node from the place `i` on. -/
def sitesFrom (r : Reader) (m : Mode) (above : List Frame) (n : Node) (i : Nat) :
    List Node → List (Mode × Site)
  | [] => []
  | c :: cs =>
    (match r.passage m n i c with
      | .enters m' => r.sitesIn m' (⟨n, i⟩ :: above) c
      | _ => []) ++ r.sitesFrom m above n (i + 1) cs

end

theorem sitesIn_eq (m : Mode) (above : List Frame) (n : Node) :
    r.sitesIn m above n = (m, ⟨n, above⟩) :: n.collect fun i c =>
      (r.passage m n i c).lift fun m' => r.sitesIn m' (⟨n, i⟩ :: above) c := by
  have key (cs : List Node) (k : Nat) : r.sitesFrom m above n k cs = (cs.zipIdx k).flatMap fun p =>
      (r.passage m n p.2 p.1).lift fun m' => r.sitesIn m' (⟨n, p.2⟩ :: above) p.1 := by
    induction cs generalizing k with
    | nil => rw [sitesFrom]; rfl
    | cons c cs ih =>
      rw [sitesFrom, ih, List.zipIdx_cons, List.flatMap_cons]
      cases r.passage m n k c <;> rfl
  cases n with
  | mk label children => rw [sitesIn, key children 0]; rfl

theorem Reaches.of_mem_sitesIn {n : Node} {above : List Frame} (h : r.Reaches root m ⟨n, above⟩)
    {p : Mode × Site} (hp : p ∈ r.sitesIn m above n) : r.Reaches root p.1 p.2 := by
  induction n using Node.childrenInduction generalizing m above with
  | h n ih =>
    rw [sitesIn_eq, List.mem_cons] at hp
    rcases hp with rfl | hp
    · exact h
    · obtain ⟨i, c, hc, hp⟩ := Node.getElem?_of_mem_collect hp
      cases hpassage : r.passage m n i c with
      | enters m' =>
        rw [hpassage] at hp
        exact ih c (List.mem_of_getElem? hc) (h.child hc hpassage) hp
      | overlooks | seals =>
        rw [hpassage] at hp
        cases hp

end Reader

end FlowShape
