import FlowShape.Tree.Kind
import FlowShape.Tree.Field

/-!
# Concrete syntax trees

A node has a label and its direct children in document order, punctuation and comments included.
The analysis moves through *named* children, which leave both out, and through fields.
Every move but `unwrap` leads to a strictly smaller tree, and `unwrap` never to a larger one; all
recursion over syntax ends for that reason.
-/

namespace FlowShape

/-- What is known of a syntax node apart from its children. Offsets count bytes of the source. -/
structure Label where
  kind : Kind
  start : Nat
  stop : Nat
  field : Option Field := none
  named : Bool := true
  /-- The node stands for a token that the source lacks. -/
  missing : Bool := false
  /-- The node covers text that fits no rule. -/
  unexpected : Bool := false
  /-- The subtree holds a missing or an unexpected node. -/
  flawed : Bool := false
  deriving DecidableEq

inductive Node where
  | mk (label : Label) (children : List Node)

namespace Node

def label : Node → Label
  | mk label _ => label

def children : Node → List Node
  | mk _ children => children

def kind (n : Node) : Kind := n.label.kind
def start (n : Node) : Nat := n.label.start
def stop (n : Node) : Nat := n.label.stop

/-! ## Size -/

mutual

/-- The number of nodes of a tree. -/
def size : Node → Nat
  | mk _ children => 1 + sizeAll children

def sizeAll : List Node → Nat
  | [] => 0
  | n :: ns => n.size + sizeAll ns

end

@[simp] theorem sizeAll_append (ns ms : List Node) :
    sizeAll (ns ++ ms) = sizeAll ns + sizeAll ms := by
  induction ns with
  | nil => simp [sizeAll]
  | cons n ns ih => simp only [List.cons_append, sizeAll, ih]; omega

@[simp] theorem sizeAll_reverse (ns : List Node) : sizeAll ns.reverse = sizeAll ns := by
  induction ns with
  | nil => rfl
  | cons n ns ih => simp only [List.reverse_cons, sizeAll_append, sizeAll, ih]; omega

theorem size_le_sizeAll {c : Node} {ns : List Node} (h : c ∈ ns) : c.size ≤ sizeAll ns := by
  induction ns with
  | nil => cases h
  | cons n ns ih =>
    simp only [sizeAll]
    rcases List.mem_cons.1 h with rfl | h
    · omega
    · have := ih h
      omega

theorem sizeAll_filter_le (p : Node → Bool) (ns : List Node) :
    sizeAll (ns.filter p) ≤ sizeAll ns := by
  induction ns with
  | nil => simp [sizeAll]
  | cons n ns ih =>
    rw [List.filter_cons]
    split <;> simp only [sizeAll] <;> omega

theorem size_eq (n : Node) : n.size = 1 + sizeAll n.children := by
  cases n; rfl

theorem size_lt_of_mem {n c : Node} (h : c ∈ n.children) : c.size < n.size := by
  have := size_le_sizeAll h
  have := n.size_eq
  omega

/-! ## Moves -/

/-- Named nodes other than comments. -/
def isPart (n : Node) : Bool := n.label.named && n.kind != .comment

/-- The named children, without comments. -/
def parts (n : Node) : List Node := n.children.filter isPart

def firstPart? (n : Node) : Option Node := n.parts.head?

/-- The first child in a field. -/
def child? (n : Node) (f : Field) : Option Node :=
  n.children.find? (·.label.field == some f)

/-- The parts other than the first child in a field. -/
def partsBut (n : Node) (f : Field) : List Node :=
  (n.children.eraseP (·.label.field == some f)).filter isPart

theorem size_lt_of_mem_parts {n c : Node} (h : c ∈ n.parts) : c.size < n.size :=
  size_lt_of_mem (List.mem_filter.1 h).1

theorem size_lt_of_firstPart? {n c : Node} (h : n.firstPart? = some c) : c.size < n.size :=
  size_lt_of_mem_parts (List.mem_of_mem_head? h)

theorem size_lt_of_child? {n c : Node} {f : Field} (h : n.child? f = some c) : c.size < n.size :=
  size_lt_of_mem (List.mem_of_find?_eq_some h)

theorem size_lt_of_mem_partsBut {n c : Node} {f : Field} (h : c ∈ n.partsBut f) :
    c.size < n.size :=
  size_lt_of_mem (List.mem_of_mem_eraseP (List.mem_filter.1 h).1)

/-- Strips `await`, parentheses and type assertions. -/
def unwrap (n : Node) : Node :=
  if n.kind.isTransparent then
    match _h : n.firstPart? with
    | some inner => inner.unwrap
    | none => n
  else n
termination_by n.size
decreasing_by exact size_lt_of_firstPart? _h

theorem size_unwrap_le (n : Node) : n.unwrap.size ≤ n.size := by
  fun_induction unwrap n with
  | case1 n _ inner h ih =>
    have := size_lt_of_firstPart? h
    omega
  | case2 | case3 => exact Nat.le_refl _

/-- The argument expressions of a call. -/
def callArguments (call : Node) : List Node :=
  match call.child? .arguments with
  | some list => if list.kind = .arguments then list.parts else []
  | none => []

theorem size_lt_of_mem_callArguments {call a : Node} (h : a ∈ call.callArguments) :
    a.size < call.size := by
  unfold callArguments at h
  split at h
  · next list hl =>
    split at h
    · exact Nat.lt_trans (size_lt_of_mem_parts h) (size_lt_of_child? hl)
    · cases h
  · cases h

/-! ## Functions -/

def isFunctionLiteral (n : Node) : Bool := n.kind.isFunctionLiteral
def isFunctionScope (n : Node) : Bool := n.kind.isFunctionScope

/-- The binding pattern of a function's first parameter. -/
def firstParameter? (f : Node) : Option Node :=
  f.child? .parameter <|> do
    let first ← (← f.child? .parameters).firstPart?
    if first.kind = .requiredParameter ∨ first.kind = .optionalParameter then
      first.child? .pattern <|> first.firstPart?
    else
      some first

/-- The whole parameter list of a function, or its only parameter. -/
def parameterList? (f : Node) : Option Node :=
  f.child? .parameters <|> f.child? .parameter

end Node

end FlowShape
