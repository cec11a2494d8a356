import FlowShape.Proofs.Tree.Builder
import FlowShape.Proofs.Tree.First
import FlowShape.Proofs.Tree.Meaning

/-!
# Names of operations

A function with a block for its body is named by the first value that it returns, in document order
and outside the functions in it, or else by its first call. A `return` without a value in front of
the first value hides all values.
-/

namespace FlowShape

namespace Node

variable {n body e : Node}

def isReturn (n : Node) : Bool := n.kind == .returnStatement

/-- A `return` with a value. -/
def returnsValue (n : Node) : Bool := n.isReturn && n.firstPart?.isSome

/-- A `return` without a value. -/
def returnsNothing (n : Node) : Bool := n.isReturn && n.firstPart?.isNone

def isCall (n : Node) : Bool := n.kind == .callExpression

theorem returnsValue_iff : n.returnsValue ↔ n.isReturn ∧ ∃ e, n.firstPart? = some e := by
  simp [returnsValue, Option.isSome_iff_exists]

theorem returnsNothing_iff : n.returnsNothing ↔ n.isReturn ∧ n.firstPart? = none := by
  simp [returnsNothing]

theorem firstReturned?_eq_some_iff : body.firstReturned? = some e ↔
    ∃ s, Site.IsFirst isReturn body s ∧ s.node.firstPart? = some e := by
  rw [firstReturned?, Option.bind_eq_some_iff]
  constructor
  · rintro ⟨d, hd, he⟩
    obtain ⟨s, hs, rfl⟩ := findOutsideFunctions?_eq_some_iff.1 hd
    exact ⟨s, hs, he⟩
  · rintro ⟨s, hs, he⟩
    exact ⟨s.node, findOutsideFunctions?_eq_some_iff.2 ⟨s, hs, rfl⟩, he⟩

end Node

namespace Site

variable {body : Node} {s t : Site}

theorem Finds.mono {p q : Node → Bool} {root : Node} (h : ∀ n, p n → q n) (hs : Finds p root s) :
    Finds q root s :=
  ⟨hs.reaches, hs.outside, h _ hs.holds⟩

/-- The values that a body returns are in sight: no `return` without a value stands before the
first of them. -/
def ReturnsFirst (body : Node) (s : Site) : Prop :=
  IsFirst Node.returnsValue body s ∧ ∀ t, Finds Node.returnsNothing body t → s.Precedes t

/-- Every value that a body returns has a `return` without a value before it. -/
def HidesValues (body : Node) : Prop :=
  ∀ s, Finds Node.returnsValue body s → ∃ t, Finds Node.returnsNothing body t ∧ t.Precedes s

theorem Finds.isReturn_of_value (h : Finds Node.returnsValue body s) :
    Finds Node.isReturn body s :=
  h.mono fun _ hn => (Node.returnsValue_iff.1 hn).1

theorem Finds.isReturn_of_nothing (h : Finds Node.returnsNothing body s) :
    Finds Node.isReturn body s :=
  h.mono fun _ hn => (Node.returnsNothing_iff.1 hn).1

theorem Finds.ne_of_value (hs : Finds Node.returnsValue body s)
    (ht : Finds Node.returnsNothing body t) : s ≠ t := by
  rintro rfl
  obtain ⟨e, he⟩ := (Node.returnsValue_iff.1 hs.holds).2
  simp [(Node.returnsNothing_iff.1 ht.holds).2] at he

/-- Every `return` has a value or none. -/
theorem Finds.value_or_nothing (h : Finds Node.isReturn body s) :
    Finds Node.returnsValue body s ∨ Finds Node.returnsNothing body s := by
  cases hpart : s.node.firstPart? with
  | some e => exact .inl ⟨h.reaches, h.outside, Node.returnsValue_iff.2 ⟨h.holds, e, hpart⟩⟩
  | none => exact .inr ⟨h.reaches, h.outside, Node.returnsNothing_iff.2 ⟨h.holds, hpart⟩⟩

theorem ReturnsFirst.isFirst (h : ReturnsFirst body s) : IsFirst Node.isReturn body s where
  toFinds := h.1.isReturn_of_value
  first t ht := ht.value_or_nothing.elim (h.1.first t) fun ht => .inr (h.2 t ht)

theorem IsFirst.returnsFirst {e : Node} (h : IsFirst Node.isReturn body s)
    (he : s.node.firstPart? = some e) : ReturnsFirst body s := by
  have hvalue : Finds Node.returnsValue body s :=
    ⟨h.reaches, h.outside, Node.returnsValue_iff.2 ⟨h.holds, e, he⟩⟩
  refine ⟨⟨hvalue, fun t ht => h.first t ht.isReturn_of_value⟩, fun t ht => ?_⟩
  exact (h.first t ht.isReturn_of_nothing).resolve_left (hvalue.ne_of_value ht).symm

theorem hidesValues_iff : HidesValues body ↔ body.firstReturned? = none := by
  constructor
  · intro h
    refine Option.eq_none_iff_forall_ne_some.2 fun e he => ?_
    obtain ⟨s, hs, hpart⟩ := Node.firstReturned?_eq_some_iff.1 he
    obtain ⟨t, ht, hbefore⟩ :=
      h s ⟨hs.reaches, hs.outside, Node.returnsValue_iff.2 ⟨hs.holds, e, hpart⟩⟩
    rcases hs.first t ht.isReturn_of_nothing with rfl | hbehind
    · exact hbefore.ne rfl
    · exact hbefore.asymm hbehind
  · intro h s hs
    cases hfirst : body.findOutsideFunctions? Node.isReturn with
    | none => exact absurd hs.isReturn_of_value (Node.findOutsideFunctions?_eq_none_iff.1 hfirst s)
    | some d =>
      obtain ⟨t, ht, rfl⟩ := Node.findOutsideFunctions?_eq_some_iff.1 hfirst
      have hnothing : Finds Node.returnsNothing body t := by
        refine ht.value_or_nothing.resolve_left fun hvalue => ?_
        obtain ⟨e, he⟩ := (Node.returnsValue_iff.1 hvalue.holds).2
        have hsome := Node.firstReturned?_eq_some_iff.2 ⟨t, ht, he⟩
        simp [h] at hsome
      exact ⟨t, hnothing, (ht.first s hs.isReturn_of_value).resolve_left (hs.ne_of_value hnothing)⟩

end Site

namespace Source

variable {src : Source} {n body : Node}

theorem operationCallee_of_block
    (hfunction : n.unwrap.isFunctionLiteral ∨ n.unwrap.kind = .methodDefinition)
    (hbody : n.unwrap.child? .body = some body) (hblock : body.kind = .statementBlock) :
    src.operationCallee n = (body.resultOf?.map src.operationCallee).getD dynamicText := by
  have hkind : ¬(n.unwrap.kind = .callExpression ∨ n.unwrap.kind = .newExpression) := by
    rintro (hkind | hkind) <;>
      simp [hkind, Node.isFunctionLiteral, Kind.isFunctionLiteral] at hfunction
  rw [operationCallee_eq, if_neg hkind, if_pos hfunction, Node.outcome?, hbody, Option.bind_some,
    if_pos hblock]

/-- A function with a block is named by the first value that it returns, if no `return` without a
value stands before it. Otherwise, as if it returned no value, it is named by its first call. -/
theorem operations_are_named_by_results (src : Source) {n body : Node}
    (hfunction : n.unwrap.isFunctionLiteral ∨ n.unwrap.kind = .methodDefinition)
    (hbody : n.unwrap.child? .body = some body) (hblock : body.kind = .statementBlock) :
    ((∃ s, Site.ReturnsFirst body s) ∨ Site.HidesValues body) ∧
    (∀ s e, Site.ReturnsFirst body s → s.node.firstPart? = some e →
      src.operationCallee n = src.operationCallee e) ∧
    (Site.HidesValues body →
      (∀ s, Site.IsFirst Node.isCall body s →
        src.operationCallee n = src.operationCallee s.node) ∧
      ((∀ s, ¬Site.Finds Node.isCall body s) → src.operationCallee n = dynamicText)) := by
  rw [operationCallee_of_block hfunction hbody hblock, Node.resultOf?]
  refine ⟨?_, fun s e hs he => ?_, fun h => ⟨fun s hs => ?_, fun hnone => ?_⟩⟩
  · cases h : body.firstReturned? with
    | none => exact .inr (Site.hidesValues_iff.2 h)
    | some e =>
      obtain ⟨s, hs, he⟩ := Node.firstReturned?_eq_some_iff.1 h
      exact .inl ⟨s, hs.returnsFirst he⟩
  · rw [Node.firstReturned?_eq_some_iff.2 ⟨s, hs.isFirst, he⟩]
    rfl
  · rw [Site.hidesValues_iff.1 h]
    have hcall := Node.findOutsideFunctions?_eq_some_iff.2 ⟨s, hs, rfl⟩
    exact congrArg (fun d => (d.map src.operationCallee).getD dynamicText) hcall
  · rw [Site.hidesValues_iff.1 h]
    have hcall := Node.findOutsideFunctions?_eq_none_iff.2 hnone
    exact congrArg (fun d => (d.map src.operationCallee).getD dynamicText) hcall

end Source

namespace Sample

def plainSource : Source := .ofString "sample.ts" "() => \x7b a(); return b(); \x7d"

def earlySource : Source :=
  .ofString "sample.ts" "() => \x7b if (x) \x7b a(); return; \x7d return b(); \x7d"

/-- A function without parameters. -/
def thunk (body : Node) : Node :=
  part .arrowFunction 0 body.stop [
    role .parameters .formalParameters 0 2 [token "(" 0, token ")" 1], token "=>" 3, body]

def plainBody : Node :=
  role .body .statementBlock 6 26 [
    token "\x7b" 6, part .expressionStatement 8 12 [emptyCall 8, token ";" 11],
    part .returnStatement 13 24 [token "return" 13, emptyCall 20, token ";" 23], token "\x7d" 25]

/-- A function body that may return early without a value. -/
def earlyBody : Node :=
  role .body .statementBlock 6 45 [
    token "\x7b" 6,
    part .ifStatement 8 31 [
      token "if" 8, condition 11 (part .identifier 12 13 []),
      role .consequence .statementBlock 15 31 [
        token "\x7b" 15, part .expressionStatement 17 21 [emptyCall 17, token ";" 20],
        part .returnStatement 22 29 [token "return" 22, token ";" 28], token "\x7d" 30]],
    part .returnStatement 32 43 [token "return" 32, emptyCall 39, token ";" 42],
    token "\x7d" 44]

end Sample

namespace Source

/-- The function `() => { a(); return b(); }` is named by `b`. With an early `return` beside the
call of `a` it is named by `a`. -/
theorem operations_are_named_by_results_early :
    (∃ s e, Site.ReturnsFirst Sample.plainBody s ∧ s.node.firstPart? = some e ∧
      Sample.plainSource.operationCallee (Sample.thunk Sample.plainBody) =
        Sample.plainSource.operationCallee e ∧
      Sample.plainSource.operationCallee e = "b") ∧
    Site.HidesValues Sample.earlyBody ∧ (∃ s, Site.Finds Node.returnsValue Sample.earlyBody s) ∧
    Sample.earlySource.operationCallee (Sample.thunk Sample.earlyBody) = "a" := by
  have hunwrap (body : Node) : (Sample.thunk body).unwrap = Sample.thunk body :=
    Node.unwrap_of_not_transparent rfl
  have hfunction (body : Node) : (Sample.thunk body).unwrap.isFunctionLiteral := by
    rw [hunwrap]
    rfl
  have hplain : (Sample.thunk Sample.plainBody).unwrap.child? .body = some Sample.plainBody := by
    rw [hunwrap]
    rfl
  have hearly : (Sample.thunk Sample.earlyBody).unwrap.child? .body = some Sample.earlyBody := by
    rw [hunwrap]
    rfl
  have hvalue : Sample.plainBody.firstReturned?.map Sample.plainSource.operationCallee =
      some "b" := by
    decide +kernel
  have hhides : Site.HidesValues Sample.earlyBody :=
    Site.hidesValues_iff.2 (Option.isNone_iff_eq_none.1 (by decide +kernel))
  have hcall : (Sample.earlyBody.findOutsideFunctions? Node.isCall).map
      Sample.earlySource.operationCallee = some "a" := by
    decide +kernel
  have hreturn : (Sample.earlyBody.findOutsideFunctions? Node.returnsValue).isSome := by
    decide +kernel
  obtain ⟨-, hnamed, -⟩ := operations_are_named_by_results Sample.plainSource
    (.inl (hfunction Sample.plainBody)) hplain rfl
  obtain ⟨-, -, hhidden⟩ := operations_are_named_by_results Sample.earlySource
    (.inl (hfunction Sample.earlyBody)) hearly rfl
  refine ⟨?_, hhides, ?_, ?_⟩
  · obtain ⟨e, he, hb⟩ := Option.map_eq_some_iff.1 hvalue
    obtain ⟨s, hs, hpart⟩ := Node.firstReturned?_eq_some_iff.1 he
    exact ⟨s, e, hs.returnsFirst hpart, hpart, hnamed s e (hs.returnsFirst hpart) hpart, hb⟩
  · obtain ⟨d, hd⟩ := Option.isSome_iff_exists.1 hreturn
    obtain ⟨s, hs, -⟩ := Node.findOutsideFunctions?_eq_some_iff.1 hd
    exact ⟨s, hs.toFinds⟩
  · obtain ⟨d, hd, ha⟩ := Option.map_eq_some_iff.1 hcall
    obtain ⟨s, hs, rfl⟩ := Node.findOutsideFunctions?_eq_some_iff.1 hd
    rw [(hhidden hhides).1 s hs, ha]

end Source

end FlowShape
