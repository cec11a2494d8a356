import FlowShape.Proofs.Tree.Children

/-!
# Passages of reading

Reading goes from a node to some of its children, each in a role of its own. `passage` tells child
by child where reading goes on. A child that is not read is sealed if it belongs to something else:
to a nested function, to the body of a class, or to a step. Otherwise it is overlooked: it is run as
part of the callback, and still nothing in it is found.
-/

namespace FlowShape

/-- The role in which a node is read. -/
inductive Mode where
  | statement
  | expression
  /-- A function literal that is entered. -/
  | callback
  /-- The body of a function literal: a block or an expression. -/
  | body
  /-- An argument of a helper: a function literal to enter, or an expression. -/
  | argument
  /-- A branch of a combinator. -/
  | element
  /-- The array of the branches of a combinator. -/
  | branches
  /-- An object with a key for each branch, one of its entries, and the value in an entry. -/
  | keyed
  | entry
  | keyedBranch (key : String)
  | declarator
  | elseClause
  /-- The handler or the finalizer of a `try` statement. -/
  | handler
  | switchBody
  | case
  /-- The arguments of a call. -/
  | arguments (shape : CallShape)
  deriving DecidableEq

/-- The roles in which a node only stands between others. -/
def Mode.passesOn : Mode → Bool
  | .branches | .keyed | .entry | .declarator | .elseClause | .handler | .switchBody | .case
  | .arguments _ => true
  | _ => false

inductive Passage where
  | enters (m : Mode)
  | overlooks
  | seals
  deriving DecidableEq

namespace Passage

variable {α : Type}

def ofMode? (m : Option Mode) : Passage := (m.map enters).getD overlooks

/-- The first child in each field of a table is entered. -/
def ofField (n : Node) (i : Nat) (table : List (Field × Mode)) : Passage :=
  ofMode? ((table.find? fun p => n.fieldIndex? p.1 == some i).map (·.2))

/-- Parts are entered as their rank says. -/
def ofRank (n : Node) (i : Nat) (c : Node) (mode? : Nat → Option Mode) : Passage :=
  ofMode? (if c.isPart then mode? (n.rank i) else none)

/-- What is found behind a passage, given what is found in each role. -/
def lift (g : Mode → List α) : Passage → List α
  | enters m => g m
  | overlooks | seals => []

theorem lift_ofMode? (g : Mode → List α) (m : Option Mode) :
    (ofMode? m).lift g = (m.map g).getD [] := by
  cases m <;> rfl

end Passage

namespace CallShape

/-- Whether a call is a step of its own. -/
def isStep : CallShape → Bool
  | .step | .method .retry | .method .withTimeout | .sagaStep _ => true
  | _ => false

/-- Whether the arguments of a call belong to what it calls. -/
def sealsArguments : CallShape → Bool
  | .method (.stream _) | .workflowRef _ => true
  | shape => shape.isStep

/-- The role of an argument of a method that runs a callback. -/
def enclosedMode? (arguments : List Node) (j : Nat) : Option Mode :=
  match arguments.findIdx? Node.isFunctionLiteral with
  | some k => if j = k then some .callback else none
  | none => if j = 0 then none else some .expression

/-- The role of an argument at a place. -/
def argumentMode? (shape : CallShape) (arguments : List Node) (j : Nat) : Option Mode :=
  match shape with
  | .method .parallel =>
    if (arguments.head?.map Node.unwrap).any (·.kind == .object) then
      if j = 0 then some .keyed else none
    else enclosedMode? arguments j
  | .method .race => enclosedMode? arguments j
  | .helper (.conditional _) => if j = 1 then some .argument else none
  | .helper (.combinator _) =>
    if j = 0 then
      some (if (arguments.head?.map Node.unwrap).any (·.kind == .array) then .branches
        else .argument)
    else none
  | .iteration _ => if j = 0 then some .callback else none
  | _ => none

end CallShape

namespace Reader

/-- The shape of a node that is a call. -/
def shapeOf? (r : Reader) (n : Node) : Option CallShape :=
  if n.kind = .callExpression then r.classify n else none

/-- What does not enter a declaration or a class. -/
def outside (n c : Node) : Passage :=
  if n.isFunctionScope || c.kind == .classBody then .seals else .overlooks

def statementPassage (n : Node) (i : Nat) (c : Node) : Passage :=
  match n.kind with
  | .expressionStatement | .returnStatement | .throwStatement =>
    .ofRank n i c fun j => if j = 0 then some .expression else none
  | .lexicalDeclaration | .variableDeclaration => .ofRank n i c fun _ => some .declarator
  | .statementBlock => .ofRank n i c fun _ => some .statement
  | .ifStatement => .ofField n i [(.consequence, .statement), (.alternative, .elseClause)]
  | .forStatement | .forInStatement | .whileStatement | .doStatement | .labeledStatement =>
    .ofField n i [(.body, .statement)]
  | .switchStatement => .ofField n i [(.body, .switchBody)]
  | .tryStatement =>
    .ofField n i [(.body, .statement), (.handler, .handler), (.finalizer, .handler)]
  | _ => outside n c

/-- Wrappers are seen through: the first part keeps the role. -/
def unwrapPassage (n : Node) (i : Nat) (c : Node) (m : Mode) : Passage :=
  .ofRank n i c fun j => if j = 0 then some m else none

def expressionPassage (r : Reader) (n : Node) (i : Nat) (c : Node) : Passage :=
  if n.kind.isTransparent then unwrapPassage n i c .expression
  else if n.isFunctionScope || n.kind == .classExpression then outside n c
  else if n.kind = .ternaryExpression then
    .ofField n i
      [(.condition, .expression), (.consequence, .expression), (.alternative, .expression)]
  else
    match r.shapeOf? n with
    | none => .ofRank n i c fun _ => some .expression
    | some shape => .ofField n i [(.arguments, .arguments shape)]

def callbackPassage (n : Node) (i : Nat) : Passage := .ofField n i [(.body, .body)]

def argumentPassage (r : Reader) (n : Node) (i : Nat) (c : Node) : Passage :=
  if n.kind.isTransparent then unwrapPassage n i c .argument
  else if n.isFunctionLiteral then callbackPassage n i
  else r.expressionPassage n i c

/-- How reading passes from a node in a role to the child `c` at the place `i`. -/
def passage (r : Reader) (m : Mode) (n : Node) (i : Nat) (c : Node) : Passage :=
  match m with
  | .statement => statementPassage n i c
  | .expression => r.expressionPassage n i c
  | .callback => callbackPassage n i
  | .body =>
    if n.kind = .statementBlock then statementPassage n i c else r.expressionPassage n i c
  | .argument => r.argumentPassage n i c
  | .element =>
    if n.kind.isTransparent then unwrapPassage n i c .element
    else if n.kind = .callExpression ∧ (r.classify n).isNone then .seals
    else r.argumentPassage n i c
  | .branches =>
    if n.kind.isTransparent then unwrapPassage n i c .branches
    else .ofRank n i c fun _ => if n.kind = .array then some .element else none
  | .keyed =>
    if n.kind.isTransparent then unwrapPassage n i c .keyed
    else .ofRank n i c fun _ =>
      if n.kind = .object then
        (r.source.entry? c).map fun p => if c.kind = .pair then .entry else .keyedBranch p.1
      else none
  | .entry =>
    .ofField n i ((n.inField .key).map fun k => (.value, .keyedBranch (r.source.propertyKey k)))
  | .keyedBranch _ => .seals
  | .declarator => .ofField n i [(.value, .expression)]
  | .elseClause => .ofRank n i c fun _ => some .statement
  | .handler => .ofField n i [(.body, .statement)]
  | .switchBody =>
    .ofRank n i c fun _ =>
      if c.kind == .switchCase || c.kind == .switchDefault then some .case else none
  | .case =>
    .ofMode? (if c.isPart && n.fieldIndex? .value != some i then some .statement else none)
  | .arguments shape =>
    if n.kind ≠ .arguments then .overlooks
    else if shape.sealsArguments then .seals
    else .ofRank n i c (shape.argumentMode? n.parts)

/-- Whether a node in a role is a step: by the call that it is, or as a branch of a combinator. -/
def isStepAs (r : Reader) (m : Mode) (n : Node) : Bool :=
  match m with
  | .expression | .body | .argument => (r.shapeOf? n).any CallShape.isStep
  | .element => n.kind == .callExpression && (r.classify n).all CallShape.isStep
  | .keyedBranch _ => true
  | _ => false

mutual

/-- What reading finds in a node by its role. -/
def read (r : Reader) (m : Mode) : Node → List Outline
  | .mk label children =>
    match m with
    | .statement => r.statement (.mk label children)
    | .expression => r.expression (.mk label children)
    | .callback => r.callback (.mk label children)
    | .body =>
      if label.kind = .statementBlock then r.statement (.mk label children)
      else r.expression (.mk label children)
    | .argument => r.argument (.mk label children)
    | .element => r.element (.mk label children)
    | .keyedBranch key =>
      [implicitStep (.mk label children) key (r.source.operationCallee (.mk label children))]
    | _ => r.readFrom m (.mk label children) 0 children

/-- What is found in the children of a node from the place `i` on. -/
def readFrom (r : Reader) (m : Mode) (n : Node) (i : Nat) : List Node → List Outline
  | [] => []
  | c :: cs =>
    (match r.passage m n i c with
      | .enters m' => r.read m' c
      | _ => []) ++ r.readFrom m n (i + 1) cs

end

/-- What reading finds in the children of a node, in their order. -/
def inner (r : Reader) (m : Mode) (n : Node) : List Outline :=
  n.collect fun i c => (r.passage m n i c).lift fun m' => r.read m' c

theorem readFrom_children (r : Reader) (m : Mode) (n : Node) :
    r.readFrom m n 0 n.children = r.inner m n := by
  have key (cs : List Node) (k : Nat) : r.readFrom m n k cs = (cs.zipIdx k).flatMap fun p =>
      (r.passage m n p.2 p.1).lift fun m' => r.read m' p.1 := by
    induction cs generalizing k with
    | nil => rfl
    | cons c cs ih =>
      rw [readFrom, ih, List.zipIdx_cons, List.flatMap_cons]
      cases r.passage m n k c <;> rfl
  exact key n.children 0

end Reader

end FlowShape
