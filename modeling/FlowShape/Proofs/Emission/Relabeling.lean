import Mathlib.Data.List.Basic
import FlowShape.Proofs.Emission.Derivation
import FlowShape.Proofs.Flow.Id
import FlowShape.Proofs.Outline.Inside

/-!
# Relabelled emission

Emission never looks at the numbers and places that it gives to nodes. If the numbers start later or
the nodes of the source are taken to other places, then the same nodes are emitted with other
labels. A relabelling says how the labels change.
-/

namespace FlowShape

/-- A change of labels: numbers are raised and locations are replaced or left out. -/
structure Relabeling where
  shift : Nat := 0
  place : Location → Option Location := some

namespace Relabeling

variable (ρ : Relabeling)

def id (i : Id) : Id := i.raise ρ.shift

def tag (t : Tag) : Tag := { t with id := ρ.id t.id, location := t.location.bind ρ.place }

def warning (w : Warning) : Warning := { w with location := w.location.bind ρ.place }

def ledger (l : Ledger) : Ledger :=
  { l with used := l.used + ρ.shift, warnings := l.warnings.map ρ.warning }

theorem id_next (used : Nat) (stem : String) :
    ρ.id (Id.next used stem) = Id.next (used + ρ.shift) stem := by
  rw [id, Id.next, Id.raise_numbered, Id.next, Nat.add_right_comm]

theorem ledger_numbered (l : Ledger) : ρ.ledger l.numbered = (ρ.ledger l).numbered := by
  simp [ledger, Ledger.numbered, Nat.add_right_comm]

theorem ledger_warned (ws : List Warning) (l : Ledger) :
    ρ.ledger (l.warned ws) = (ρ.ledger l).warned (ws.map ρ.warning) := by
  simp [ledger, Ledger.warned]

end Relabeling

def Case.map {α β : Type} (f : α → β) (c : Case α) : Case β := ⟨c.value, c.isDefault, c.body.map f⟩

/-! ## Nodes -/

namespace Flow

mutual

/-- A node with other labels on it and on all nodes below it. -/
@[grind =] def relabel (ρ : Relabeling) : Flow → Flow
  | step tag s => step (ρ.tag tag) s
  | sagaStep tag s => sagaStep (ρ.tag tag) s
  | sequence tag cs => sequence (ρ.tag tag) (relabelAll ρ cs)
  | parallel tag mode callee cs => parallel (ρ.tag tag) mode callee (relabelAll ρ cs)
  | race tag callee cs => race (ρ.tag tag) callee (relabelAll ρ cs)
  | stream tag s => stream (ρ.tag tag) s
  | conditional tag condition cs none =>
    conditional (ρ.tag tag) condition (relabelAll ρ cs) none
  | conditional tag condition cs (some as) =>
    conditional (ρ.tag tag) condition (relabelAll ρ cs) (some (relabelAll ρ as))
  | switch tag expression cases => switch (ρ.tag tag) expression (relabelCases ρ cases)
  | loop tag repetition cs => loop (ρ.tag tag) repetition (relabelAll ρ cs)
  | workflowRef tag ref => workflowRef (ρ.tag tag) ref
  | unknown tag u => unknown (ρ.tag tag) u

def relabelAll (ρ : Relabeling) : List Flow → List Flow
  | [] => []
  | f :: fs => f.relabel ρ :: relabelAll ρ fs

def relabelCases (ρ : Relabeling) : List (Case Flow) → List (Case Flow)
  | [] => []
  | ⟨value, isDefault, body⟩ :: cases =>
    ⟨value, isDefault, relabelAll ρ body⟩ :: relabelCases ρ cases

end

variable {ρ : Relabeling}

@[simp, grind =] theorem relabelAll_eq_map (fs : List Flow) :
    relabelAll ρ fs = fs.map (relabel ρ) := by
  induction fs with
  | nil => rw [relabelAll]; rfl
  | cons f fs ih => rw [relabelAll, ih, List.map_cons]

@[simp] theorem relabelCases_eq_map (cases : List (Case Flow)) :
    relabelCases ρ cases = cases.map (Case.map (relabel ρ)) := by
  induction cases with
  | nil => rw [relabelCases]; rfl
  | cons c cs ih => rw [relabelCases, ih, relabelAll_eq_map, List.map_cons]; rfl

theorem relabel_conditional (tag : Tag) (condition : Condition) (cs : List Flow)
    (as : Option (List Flow)) :
    (conditional tag condition cs as).relabel ρ =
      conditional (ρ.tag tag) condition (cs.map (relabel ρ)) (as.map (List.map (relabel ρ))) := by
  cases as <;> grind

theorem children_relabel (f : Flow) : (f.relabel ρ).children = f.children.map (relabel ρ) := by
  cases f with
  | conditional tag condition cs as => cases as <;> simp [relabel, children]
  | switch tag expression cases =>
    simp [relabel, children, List.flatMap_map, List.map_flatMap, Case.map]
  | _ => simp [relabel, children]

theorem walk_relabel (f : Flow) : (f.relabel ρ).walk = f.walk.map (relabel ρ) := by
  induction f using childrenInduction with
  | h f ih =>
    rw [walk_eq, children_relabel, walk_eq f, List.map_cons, List.flatMap_map, List.map_flatMap]
    exact congrArg _ (List.flatMap_congr ih)

@[simp] theorem isCallShape_relabel (f : Flow) : (f.relabel ρ).isCallShape = f.isCallShape := by
  cases f with
  | conditional => rw [relabel_conditional]; rfl
  | _ => rw [relabel]; rfl

@[simp] theorem hasWork_relabel (fs : List Flow) :
    hasWork (fs.map (relabel ρ)) = hasWork fs := by
  simp [hasWork_eq_any_walk, List.flatMap_map, walk_relabel, ← List.map_flatMap,
    Function.comp_def]

end Flow

namespace Combinator

variable {ρ : Relabeling}

@[simp] theorem relabel_node (c : Combinator) (tag : Tag) (callee : String) (ns : List Flow) :
    (c.node tag callee ns).relabel ρ = c.node (ρ.tag tag) callee (ns.map (Flow.relabel ρ)) := by
  cases c <;> simp [node, Flow.relabel]

/-- Whether a node is adopted does not depend on labels. -/
theorem adopt?_relabel (c : Combinator) (name : Option String) (ns : List Flow) :
    c.adopt? name (ns.map (Flow.relabel ρ)) = (c.adopt? name ns).map (Flow.relabel ρ) := by
  match ns with
  | [] => cases c <;> rfl
  | [f] =>
    cases f with
    | conditional => cases c <;> simp [Flow.relabel_conditional, adopt?]
    | _ => cases c <;> simp [Flow.relabel, adopt?] <;> rfl
  | f :: g :: ns => cases c <;> simp [adopt?]

end Combinator

/-! ## Outlines -/

namespace Outline

mutual

/-- An outline as if it had been read from other nodes. -/
@[grind =] def mapOrigin (g : Node → Node) : Outline → Outline
  | leaf n l => leaf (g n) l
  | gather n c callee name branches => gather (g n) c callee name (mapOriginBranches g branches)
  | enclose n c callee name body => enclose (g n) c callee name (mapOriginAll g body)
  | ifElse n condition os none => ifElse (g n) condition (mapOriginAll g os) none
  | ifElse n condition os (some ps) =>
    ifElse (g n) condition (mapOriginAll g os) (some (mapOriginAll g ps))
  | ternary n condition os ps => ternary (g n) condition (mapOriginAll g os) (mapOriginAll g ps)
  | guarded n condition body => guarded (g n) condition (mapOriginAll g body)
  | switch n expression cases => switch (g n) expression (mapOriginCases g cases)
  | loop n repetition body => loop (g n) repetition (mapOriginAll g body)

def mapOriginAll (g : Node → Node) : List Outline → List Outline
  | [] => []
  | o :: os => o.mapOrigin g :: mapOriginAll g os

def mapOriginBranches (g : Node → Node) : List (List Outline) → List (List Outline)
  | [] => []
  | branch :: branches => mapOriginAll g branch :: mapOriginBranches g branches

def mapOriginCases (g : Node → Node) : List (Case Outline) → List (Case Outline)
  | [] => []
  | ⟨value, isDefault, body⟩ :: cases =>
    ⟨value, isDefault, mapOriginAll g body⟩ :: mapOriginCases g cases

end

variable {g : Node → Node}

@[simp] theorem mapOriginAll_eq_map (os : List Outline) :
    mapOriginAll g os = os.map (mapOrigin g) := by
  induction os with
  | nil => rw [mapOriginAll]; rfl
  | cons o os ih => rw [mapOriginAll, ih, List.map_cons]

@[simp] theorem mapOriginBranches_eq_map (branches : List (List Outline)) :
    mapOriginBranches g branches = branches.map (List.map (mapOrigin g)) := by
  induction branches with
  | nil => rw [mapOriginBranches]; rfl
  | cons b bs ih => rw [mapOriginBranches, ih, mapOriginAll_eq_map, List.map_cons]

@[simp] theorem mapOriginCases_eq_map (cases : List (Case Outline)) :
    mapOriginCases g cases = cases.map (Case.map (mapOrigin g)) := by
  induction cases with
  | nil => rw [mapOriginCases]; rfl
  | cons c cs ih => rw [mapOriginCases, ih, mapOriginAll_eq_map, List.map_cons]; rfl

/-! ### Outlines without places -/

/-- The origin of an outline whose origin is left out. -/
def nowhere : Node := .mk { kind := .program, start := 0, stop := 0 } []

/-- An outline without a trace of where it was read. -/
def unplaced (o : Outline) : Outline := o.mapOrigin fun _ => nowhere

@[simp] theorem unplaced_leaf (n : Node) (l : Leaf) : (leaf n l).unplaced = leaf nowhere l := by
  grind [unplaced]

@[simp] theorem unplaced_gather (n : Node) (c : Combinator) (callee : String)
    (name : Option String) (branches : List (List Outline)) :
    (gather n c callee name branches).unplaced =
      gather nowhere c callee name (branches.map (List.map unplaced)) := by
  rw [unplaced, mapOrigin, mapOriginBranches_eq_map]
  rfl

@[simp] theorem unplaced_enclose (n : Node) (c : Combinator) (callee : String)
    (name : Option String) (body : List Outline) :
    (enclose n c callee name body).unplaced =
      enclose nowhere c callee name (body.map unplaced) := by
  rw [unplaced, mapOrigin, mapOriginAll_eq_map]
  rfl

@[simp] theorem unplaced_ifElse (n : Node) (condition : String) (os : List Outline)
    (ps : Option (List Outline)) :
    (ifElse n condition os ps).unplaced =
      ifElse nowhere condition (os.map unplaced) (ps.map (List.map unplaced)) := by
  cases ps <;> simp [unplaced, mapOrigin]

@[simp] theorem unplaced_ternary (n : Node) (condition : String) (os ps : List Outline) :
    (ternary n condition os ps).unplaced =
      ternary nowhere condition (os.map unplaced) (ps.map unplaced) := by
  rw [unplaced, mapOrigin, mapOriginAll_eq_map, mapOriginAll_eq_map]
  rfl

@[simp] theorem unplaced_guarded (n : Node) (condition : Condition) (body : List Outline) :
    (guarded n condition body).unplaced = guarded nowhere condition (body.map unplaced) := by
  rw [unplaced, mapOrigin, mapOriginAll_eq_map]
  rfl

@[simp] theorem unplaced_switch (n : Node) (expression : String) (cases : List (Case Outline)) :
    (switch n expression cases).unplaced =
      switch nowhere expression (cases.map (Case.map unplaced)) := by
  rw [unplaced, mapOrigin, mapOriginCases_eq_map]
  rfl

@[simp] theorem unplaced_loop (n : Node) (repetition : Repetition) (body : List Outline) :
    (loop n repetition body).unplaced = loop nowhere repetition (body.map unplaced) := by
  rw [unplaced, mapOrigin, mapOriginAll_eq_map]
  rfl

theorem mapOriginAll_id (os : List Outline) : mapOriginAll id os = os := by
  induction os using inductionAll (fun o => o.mapOrigin id = o)
    (fun branches => mapOriginBranches id branches = branches)
    (fun cases => mapOriginCases id cases = cases) <;>
    simp_all [mapOrigin, mapOriginAll, mapOriginBranches, mapOriginCases]

end Outline

/-! ## Emission -/

/-- `x'` does what `x` does, with other labels. -/
def Emit.Mirrors {α : Type} (ρ : Relabeling) (f : α → α) (x x' : Emit α) : Prop :=
  ∀ l : Ledger, x'.run (ρ.ledger l) = (f (x.run l).1, ρ.ledger (x.run l).2)

namespace Emit.Mirrors

variable {ρ : Relabeling}

theorem pure {α : Type} {f : α → α} {a a' : α} (h : a' = f a) :
    Mirrors ρ f (Pure.pure a) (Pure.pure a') := by
  subst h
  exact fun _ => rfl

theorem bind {α β : Type} {f : α → α} {g : β → β} {x x' : Emit α} {k k' : α → Emit β}
    (hx : Mirrors ρ f x x') (hk : ∀ a, Mirrors ρ g (k a) (k' (f a))) :
    Mirrors ρ g (x >>= k) (x' >>= k') := by
  intro l
  rw [run_bind, run_bind, hx]
  exact hk _ _

theorem ite {α : Type} {f : α → α} {b b' : Bool} {x x' y y' : Emit α} (hb : b' = b)
    (hx : Mirrors ρ f x x') (hy : Mirrors ρ f y y') :
    Mirrors ρ f (if b then x else y) (if b' then x' else y') := by
  subst hb
  split
  · exact hx
  · exact hy

theorem fresh (stem : String) : Mirrors ρ ρ.id (Emit.fresh stem) (Emit.fresh stem) :=
  fun l => Prod.ext (ρ.id_next l.used stem).symm (ρ.ledger_numbered l).symm

theorem count (f : Stats → Stats) : Mirrors ρ id (Emit.count f) (Emit.count f) :=
  fun _ => rfl

theorem warn (w : Warning) : Mirrors ρ id (Emit.warn w) (Emit.warn (ρ.warning w)) :=
  fun l => Prod.ext rfl (ρ.ledger_warned [w] l).symm

theorem compose (ns : List Flow) :
    Mirrors ρ (List.map (Flow.relabel ρ)) (Emit.compose ns)
      (Emit.compose (ns.map (Flow.relabel ρ))) := by
  match ns with
  | [] => exact pure rfl
  | [f] => exact pure rfl
  | f :: g :: ns => exact (fresh "sequence").bind fun id => pure (by simp [Flow.relabel]; rfl)

end Emit.Mirrors

namespace Emitter

/-- `e'` emits what `e` does for nodes that are taken elsewhere, with other labels. -/
structure Relabels (ρ : Relabeling) (g : Node → Node) (e e' : Emitter) : Prop where
  location (n : Node) : e'.location (g n) = (e.location n).bind ρ.place
  reportUnknown : e'.reportUnknown = e.reportUnknown

variable {ρ : Relabeling} {g : Node → Node} {e e' : Emitter}

namespace Relabels

variable (h : Relabels ρ g e e')

include h

theorem tag (stem : String) (n : Node) (name key : Option String) :
    Emit.Mirrors ρ ρ.tag (e.tag stem n name key) (e'.tag stem (g n) name key) :=
  (Emit.Mirrors.fresh stem).bind fun id => .pure (by rw [h.location]; rfl)

theorem conditional (n : Node) (condition : Condition) (cs : List Flow)
    (as : Option (List Flow)) :
    Emit.Mirrors ρ (List.map (Flow.relabel ρ)) (e.conditional n condition cs as)
      (e'.conditional (g n) condition (cs.map (Flow.relabel ρ))
        (as.map (List.map (Flow.relabel ρ)))) :=
  (h.tag "conditional" n none none).bind fun tag => .pure (by simp [Flow.relabel_conditional])

theorem combinator (n : Node) (c : Combinator) (callee : String) (name : Option String)
    (ns : List Flow) :
    Emit.Mirrors ρ (List.map (Flow.relabel ρ)) (e.combinator n c callee name ns)
      (e'.combinator (g n) c callee name (ns.map (Flow.relabel ρ))) :=
  (Emit.Mirrors.count c.count).bind fun _ =>
    (h.tag c.stem n name none).bind fun tag => .pure (by simp)

theorem leaf (n : Node) (leaf : Leaf) :
    Emit.Mirrors ρ (List.map (Flow.relabel ρ)) (e.leaf n leaf) (e'.leaf (g n) leaf) := by
  cases leaf with
  | step name key s =>
    exact (Emit.Mirrors.count _).bind fun _ =>
      (h.tag _ n name key).bind fun tag => .pure (by simp [Flow.relabel])
  | sagaStep name key s =>
    exact (Emit.Mirrors.count _).bind fun _ =>
      (h.tag _ n name key).bind fun tag => .pure (by simp [Flow.relabel])
  | stream s =>
    exact (Emit.Mirrors.count _).bind fun _ =>
      (h.tag _ n none none).bind fun tag => .pure (by simp [Flow.relabel])
  | workflowRef ref =>
    refine (Emit.Mirrors.count _).bind fun _ => (h.tag _ n none none).bind fun tag => ?_
    have hnode : Emit.Mirrors ρ (List.map (Flow.relabel ρ)) (Pure.pure [.workflowRef tag ref])
        (Pure.pure [.workflowRef (ρ.tag tag) ref]) := .pure (by simp [Flow.relabel])
    exact .ite rfl ((Emit.Mirrors.warn _).bind fun _ => hnode) hnode
  | unknown u =>
    refine .ite h.reportUnknown ?_ (.pure rfl)
    exact (Emit.Mirrors.count _).bind fun _ =>
      (h.tag _ n none none).bind fun tag => .pure (by simp [Flow.relabel])

/-- One rule for each sort of outline. -/
theorem outlines (os : List Outline) :
    Emit.Mirrors ρ (List.map (Flow.relabel ρ)) (e.outlines os)
      (e'.outlines (Outline.mapOriginAll g os)) := by
  induction os using Outline.inductionAll
    (fun o => Emit.Mirrors ρ (List.map (Flow.relabel ρ)) (e.outline o)
      (e'.outline (o.mapOrigin g)))
    (fun branches => Emit.Mirrors ρ (List.map (Flow.relabel ρ)) (e.branches branches)
      (e'.branches (Outline.mapOriginBranches g branches)))
    (fun cases => Emit.Mirrors ρ (List.map (Case.map (Flow.relabel ρ))) (e.cases cases)
      (e'.cases (Outline.mapOriginCases g cases))) with
  | leaf n leaf => exact h.leaf n leaf
  | gather n c callee name branches ih =>
    exact ih.bind fun ns => h.combinator n c callee name ns
  | enclose n c callee name body ih =>
    refine ih.bind fun ns => ?_
    rw [Combinator.adopt?_relabel]
    cases c.adopt? name ns with
    | none => exact h.combinator n c callee name ns
    | some f => exact .pure rfl
  | ifThen n condition os ih =>
    exact (Emit.Mirrors.count _).bind fun _ => ih.bind fun cs => (Emit.Mirrors.compose cs).bind
      fun cs => h.conditional n _ cs none
  | ifElse n condition os ps ih ih' =>
    exact (Emit.Mirrors.count _).bind fun _ => ih.bind fun cs => (Emit.Mirrors.compose cs).bind
      fun cs => ih'.bind fun as => (Emit.Mirrors.compose as).bind
        fun as => h.conditional n _ cs (some as)
  | ternary n condition os ps ih ih' =>
    refine ih.bind fun cs => ih'.bind fun as => .ite (by simp) ?_ (.pure rfl)
    exact (Emit.Mirrors.count _).bind fun _ => (Emit.Mirrors.compose cs).bind
      fun cs => (Emit.Mirrors.compose as).bind fun as => h.conditional n _ cs (some as)
  | guarded n condition os ih =>
    exact (Emit.Mirrors.count _).bind fun _ => ih.bind fun cs => (Emit.Mirrors.compose cs).bind
      fun cs => h.conditional n condition cs none
  | switch n expression cases ih =>
    refine ih.bind fun cs => .ite (by simp [Case.map, Function.comp_def]) ?_ (.pure rfl)
    exact (Emit.Mirrors.count _).bind fun _ => (h.tag "switch" n none none).bind
      fun tag => .pure (by simp [Flow.relabel])
  | loop n repetition os ih =>
    refine ih.bind fun ns => (Emit.Mirrors.compose ns).bind fun ns =>
      .ite (by simp) ?_ (.pure rfl)
    exact (Emit.Mirrors.count _).bind fun _ => (h.tag "loop" n none none).bind
      fun tag => .pure (by simp [Flow.relabel])
  | nil | noBranch | noCase => exact .pure rfl
  | cons o os ih ih' => exact ih.bind fun ns => ih'.bind fun ms => .pure (by simp)
  | branch os branches ih ih' =>
    exact ih.bind fun ns => (Emit.Mirrors.compose ns).bind fun ns => ih'.bind
      fun ms => .pure (by simp)
  | case value isDefault os cases ih ih' =>
    exact ih.bind fun ns => (Emit.Mirrors.compose ns).bind fun ns => ih'.bind
      fun cs => .pure (by simp [Case.map])

theorem body (os : List Outline) :
    Emit.Mirrors ρ (List.map (Flow.relabel ρ)) (e.body os)
      (e'.body (Outline.mapOriginAll g os)) :=
  (h.outlines os).bind fun ns => Emit.Mirrors.compose ns

end Relabels

end Emitter

end FlowShape
