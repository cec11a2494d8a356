import FlowShape.Proofs.Reading.Making

/-!
# Steps of reading

The ways in which reading goes from a node to a child, one rule for each, with what is known of the
node. What holds wherever reading gets to is shown by these rules.
-/

namespace FlowShape

namespace Passage

variable {n c : Node} {i : Nat} {m : Mode}

theorem ofMode?_eq_enters {mode? : Option Mode} : ofMode? mode? = enters m ↔ mode? = some m := by
  cases mode? <;> simp [ofMode?]

theorem ofRank_eq_enters {mode? : Nat → Option Mode} :
    ofRank n i c mode? = enters m ↔ c.isPart ∧ mode? (n.rank i) = some m := by
  rw [ofRank, ofMode?_eq_enters]
  split <;> simp_all

theorem exists_of_ofField {table : List (Field × Mode)} (h : ofField n i table = enters m) :
    ∃ f, (f, m) ∈ table ∧ n.fieldIndex? f = some i := by
  obtain ⟨p, hp, rfl⟩ := Option.map_eq_some_iff.1 (ofMode?_eq_enters.1 h)
  exact ⟨p.1, List.mem_of_find?_eq_some hp, by simpa using List.find?_some hp⟩

end Passage

namespace Reader

/-- How reading goes on from a node in a role to its child `c` at the place `i`. -/
inductive Steps (r : Reader) (n : Node) (i : Nat) (c : Node) : Mode → Mode → Prop
  /-- From a statement to the expression in it. -/
  | operand : n.kind ∈ [Kind.expressionStatement, .returnStatement, .throwStatement] →
      r.Steps n i c .statement .expression
  | declarator : n.kind ∈ [Kind.lexicalDeclaration, .variableDeclaration] → c.isPart →
      r.Steps n i c .statement .declarator
  | statement : n.kind ∈ [Kind.statementBlock, .ifStatement, .forStatement, .forInStatement,
        .whileStatement, .doStatement, .labeledStatement, .tryStatement] →
      r.Steps n i c .statement .statement
  | elseClause : n.kind = .ifStatement → n.fieldIndex? .alternative = some i →
      r.Steps n i c .statement .elseClause
  | handler {f : Field} : n.kind = .tryStatement → f ∈ [Field.handler, .finalizer] →
      n.fieldIndex? f = some i → r.Steps n i c .statement .handler
  | switchBody : n.kind = .switchStatement → n.fieldIndex? .body = some i →
      r.Steps n i c .statement .switchBody
  | unwrap {m : Mode} : m ∈ [Mode.expression, .argument, .element, .branches, .keyed] →
      n.kind.isTransparent → c.isPart → n.rank i = 0 → r.Steps n i c m m
  | unwrapBody : n.kind.isTransparent → r.Steps n i c .body .expression
  /-- From an expression to one inside it. -/
  | within {m : Mode} : m ∈ [Mode.expression, .body, .argument, .element] →
      n.isFunctionScope = false → n.kind ≠ .classExpression → r.shapeOf? n = none →
      (m = .body → n.kind ≠ .statementBlock) → r.Steps n i c m .expression
  | arguments {m : Mode} {shape : CallShape} :
      m ∈ [Mode.expression, .body, .argument, .element] → r.shapeOf? n = some shape →
      n.fieldIndex? .arguments = some i → r.Steps n i c m (.arguments shape)
  /-- From a function literal to its body. -/
  | body {m : Mode} : m = .callback ∨ m ∈ [Mode.argument, .element] ∧ n.isFunctionLiteral →
      n.fieldIndex? .body = some i → r.Steps n i c m .body
  | block : n.kind = .statementBlock → r.Steps n i c .body .statement
  | element : n.kind = .array → r.Steps n i c .branches .element
  | entry : n.kind = .object → c.kind = .pair → r.Steps n i c .keyed .entry
  | keyedBranch (key : String) : n.kind = .object → r.Steps n i c .keyed (.keyedBranch key)
  | entryValue (key : String) : r.Steps n i c .entry (.keyedBranch key)
  | initializer : r.Steps n i c .declarator .expression
  | clause {m : Mode} : m ∈ [Mode.elseClause, .handler, .case] → r.Steps n i c m .statement
  | case : c.kind ∈ [Kind.switchCase, .switchDefault] → r.Steps n i c .switchBody .case
  | argument {m : Mode} {shape : CallShape} : n.kind = .arguments →
      shape.sealsArguments = false → c.isPart →
      shape.argumentMode? n.parts (n.rank i) = some m → r.Steps n i c (.arguments shape) m

variable {r : Reader} {n c : Node} {i : Nat} {m m' : Mode}

theorem steps_of_statementPassage (h : statementPassage n i c = .enters m') :
    r.Steps n i c .statement m' := by
  unfold statementPassage at h
  split at h
  case h_1 hk | h_2 hk | h_3 hk =>
    obtain ⟨-, hm⟩ := Passage.ofRank_eq_enters.1 h
    simp only [Option.ite_none_right_eq_some, Option.some.injEq] at hm
    exact hm.2 ▸ .operand (by simp [hk])
  case h_4 hk | h_5 hk =>
    obtain ⟨hc, hm⟩ := Passage.ofRank_eq_enters.1 h
    exact Option.some.inj hm ▸ .declarator (by simp [hk]) hc
  case h_6 hk =>
    obtain ⟨-, hm⟩ := Passage.ofRank_eq_enters.1 h
    exact Option.some.inj hm ▸ .statement (by simp [hk])
  case h_7 hk =>
    obtain ⟨f, hf, hi⟩ := Passage.exists_of_ofField h
    simp only [List.mem_cons, Prod.mk.injEq, List.not_mem_nil, or_false] at hf
    obtain ⟨rfl, rfl⟩ | ⟨rfl, rfl⟩ := hf
    · exact .statement (by simp [hk])
    · exact .elseClause hk hi
  case h_8 hk | h_9 hk | h_10 hk | h_11 hk | h_12 hk =>
    obtain ⟨f, hf, -⟩ := Passage.exists_of_ofField h
    simp only [List.mem_singleton, Prod.mk.injEq] at hf
    obtain ⟨-, rfl⟩ := hf
    exact .statement (by simp [hk])
  case h_13 hk =>
    obtain ⟨f, hf, hi⟩ := Passage.exists_of_ofField h
    simp only [List.mem_cons, Prod.mk.injEq, List.not_mem_nil, or_false] at hf
    obtain ⟨rfl, rfl⟩ := hf
    exact .switchBody hk hi
  case h_14 hk =>
    obtain ⟨f, hf, hi⟩ := Passage.exists_of_ofField h
    simp only [List.mem_cons, Prod.mk.injEq, List.not_mem_nil, or_false] at hf
    obtain ⟨rfl, rfl⟩ | ⟨rfl, rfl⟩ | ⟨rfl, rfl⟩ := hf
    · exact .statement (by simp [hk])
    · exact .handler hk (by simp) hi
    · exact .handler hk (by simp) hi
  case h_15 =>
    unfold outside at h
    split at h <;> cases h

theorem steps_of_unwrapPassage (hm : m ∈ [Mode.expression, .argument, .element, .branches, .keyed])
    (ht : n.kind.isTransparent) (h : unwrapPassage n i c m = .enters m') :
    r.Steps n i c m m' := by
  obtain ⟨hc, hm'⟩ := Passage.ofRank_eq_enters.1 h
  simp only [Option.ite_none_right_eq_some, Option.some.injEq] at hm'
  obtain ⟨hrank, rfl⟩ := hm'
  exact .unwrap hm ht hc hrank

/-- What is not a wrapper is entered as an expression in all roles that allow one. -/
theorem steps_of_expressionPassage (hm : m ∈ [Mode.expression, .body, .argument, .element])
    (hblock : m = .body → n.kind ≠ .statementBlock) (ht : n.kind.isTransparent = false)
    (h : r.expressionPassage n i c = .enters m') : r.Steps n i c m m' := by
  rw [expressionPassage, if_neg (by simp [ht])] at h
  split at h
  · unfold outside at h
    split at h <;> cases h
  next hclosed =>
    simp only [Bool.or_eq_true, beq_iff_eq, not_or, Bool.not_eq_true] at hclosed
    split at h
    · next hk =>
      obtain ⟨f, hf, -⟩ := Passage.exists_of_ofField h
      simp only [List.mem_cons, Prod.mk.injEq, List.not_mem_nil, or_false] at hf
      obtain rfl : m' = .expression := by rcases hf with hf | hf | hf <;> exact hf.2
      exact .within hm hclosed.1 hclosed.2 (shapeOf?_eq_none (by simp [hk])) hblock
    · split at h
      · next hs =>
        obtain ⟨-, hm'⟩ := Passage.ofRank_eq_enters.1 h
        exact Option.some.inj hm' ▸ .within hm hclosed.1 hclosed.2 hs hblock
      · next shape hs =>
        obtain ⟨f, hf, hi⟩ := Passage.exists_of_ofField h
        simp only [List.mem_singleton, Prod.mk.injEq] at hf
        obtain ⟨rfl, rfl⟩ := hf
        exact .arguments hm hs hi

theorem steps_of_callbackPassage
    (hm : m = .callback ∨ m ∈ [Mode.argument, .element] ∧ n.isFunctionLiteral)
    (h : callbackPassage n i = .enters m') : r.Steps n i c m m' := by
  obtain ⟨f, hf, hi⟩ := Passage.exists_of_ofField h
  simp only [List.mem_singleton, Prod.mk.injEq] at hf
  obtain ⟨rfl, rfl⟩ := hf
  exact .body hm hi

theorem steps_of_argumentPassage (hm : m ∈ [Mode.argument, .element])
    (ht : n.kind.isTransparent = false) (h : r.argumentPassage n i c = .enters m') :
    r.Steps n i c m m' := by
  rw [argumentPassage, if_neg (by simp [ht])] at h
  split at h
  · next hf => exact steps_of_callbackPassage (.inr ⟨hm, hf⟩) h
  · refine steps_of_expressionPassage (by simp at hm ⊢; tauto) ?_ ht h
    rintro rfl
    simp at hm

/-- All ways in which reading goes on. -/
theorem steps_of_passage (h : r.passage m n i c = .enters m') : r.Steps n i c m m' := by
  unfold passage at h
  split at h
  case h_1 => exact steps_of_statementPassage h
  case h_2 =>
    cases ht : n.kind.isTransparent with
    | true =>
      rw [expressionPassage, if_pos ht] at h
      exact steps_of_unwrapPassage (by simp) ht h
    | false => exact steps_of_expressionPassage (by simp) (by simp) ht h
  case h_3 => exact steps_of_callbackPassage (.inl rfl) h
  case h_4 =>
    split at h
    · next hk =>
      obtain ⟨-, hm⟩ := Passage.ofRank_eq_enters.1 (by simpa [statementPassage, hk] using h)
      exact Option.some.inj hm ▸ .block hk
    · next hk =>
      cases ht : n.kind.isTransparent with
      | true =>
        rw [expressionPassage, if_pos ht] at h
        obtain ⟨-, hm⟩ := Passage.ofRank_eq_enters.1 h
        simp only [Option.ite_none_right_eq_some, Option.some.injEq] at hm
        exact hm.2 ▸ .unwrapBody ht
      | false => exact steps_of_expressionPassage (by simp) (fun _ => hk) ht h
  case h_5 =>
    cases ht : n.kind.isTransparent with
    | true =>
      rw [argumentPassage, if_pos ht] at h
      exact steps_of_unwrapPassage (by simp) ht h
    | false => exact steps_of_argumentPassage (by simp) ht h
  case h_6 =>
    cases ht : n.kind.isTransparent with
    | true =>
      rw [if_pos ht] at h
      exact steps_of_unwrapPassage (by simp) ht h
    | false =>
      rw [if_neg (by simp [ht])] at h
      split at h
      · cases h
      · exact steps_of_argumentPassage (by simp) ht h
  case h_7 =>
    split at h
    · next ht => exact steps_of_unwrapPassage (by simp) ht h
    · obtain ⟨-, hm⟩ := Passage.ofRank_eq_enters.1 h
      simp only [Option.ite_none_right_eq_some, Option.some.injEq] at hm
      exact hm.2 ▸ .element hm.1
  case h_8 =>
    split at h
    · next ht => exact steps_of_unwrapPassage (by simp) ht h
    · obtain ⟨-, hm⟩ := Passage.ofRank_eq_enters.1 h
      simp only [Option.ite_none_right_eq_some] at hm
      obtain ⟨hk, hm⟩ := hm
      obtain ⟨p, -, rfl⟩ := Option.map_eq_some_iff.1 hm
      split
      · next hc => exact .entry hk hc
      · exact .keyedBranch p.1 hk
  case h_9 =>
    obtain ⟨f, hf, -⟩ := Passage.exists_of_ofField h
    simp only [List.mem_map, Prod.mk.injEq] at hf
    obtain ⟨k, -, -, rfl⟩ := hf
    exact .entryValue _
  case h_10 => cases h
  case h_11 =>
    obtain ⟨f, hf, -⟩ := Passage.exists_of_ofField h
    simp only [List.mem_singleton, Prod.mk.injEq] at hf
    exact hf.2 ▸ .initializer
  case h_12 =>
    obtain ⟨-, hm⟩ := Passage.ofRank_eq_enters.1 h
    exact Option.some.inj hm ▸ .clause (by simp)
  case h_13 =>
    obtain ⟨f, hf, -⟩ := Passage.exists_of_ofField h
    simp only [List.mem_singleton, Prod.mk.injEq] at hf
    exact hf.2 ▸ .clause (by simp)
  case h_14 =>
    obtain ⟨-, hm⟩ := Passage.ofRank_eq_enters.1 h
    simp only [Option.ite_none_right_eq_some, Option.some.injEq] at hm
    exact hm.2 ▸ .case (by simpa using hm.1)
  case h_15 =>
    have hm := Passage.ofMode?_eq_enters.1 h
    simp only [Option.ite_none_right_eq_some, Option.some.injEq] at hm
    exact hm.2 ▸ .clause (by simp)
  case h_16 shape =>
    split at h
    · cases h
    next hk =>
      split at h
      · cases h
      next hs =>
        obtain ⟨hc, hm⟩ := Passage.ofRank_eq_enters.1 h
        exact .argument (by simpa using hk) (by simpa using hs) hc hm

end Reader

end FlowShape
