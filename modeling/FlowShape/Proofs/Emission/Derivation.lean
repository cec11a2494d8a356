import FlowShape.Outline.Emission
import FlowShape.Proofs.Flow.Walk
import FlowShape.Proofs.Outline.Inside

/-!
# Derivations of emitted nodes

`Emits e os l ns m` says that the outlines `os` can be emitted as the nodes `ns`, with the account
going from `l` to `m`. There is a rule for each thing that emission does, with what it checks before
it does so. `emits_outlines` says that a run of the emitter is such a derivation, so that a property
of all runs is shown by one induction on derivations.
-/

namespace FlowShape

/-! ## The account -/

namespace Ledger

/-- The account after one more identifier. -/
def numbered (l : Ledger) : Ledger := { l with used := l.used + 1 }

def counted (f : Stats → Stats) (l : Ledger) : Ledger := { l with stats := f l.stats }

def warned (warnings : List Warning) (l : Ledger) : Ledger :=
  { l with warnings := l.warnings ++ warnings }

@[simp] theorem used_numbered (l : Ledger) : l.numbered.used = l.used + 1 := rfl
@[simp] theorem stats_numbered (l : Ledger) : l.numbered.stats = l.stats := rfl
@[simp] theorem used_counted (f : Stats → Stats) (l : Ledger) : (l.counted f).used = l.used := rfl
@[simp] theorem stats_counted (f : Stats → Stats) (l : Ledger) :
    (l.counted f).stats = f l.stats := rfl
@[simp] theorem used_warned (ws : List Warning) (l : Ledger) : (l.warned ws).used = l.used := rfl
@[simp] theorem stats_warned (ws : List Warning) (l : Ledger) :
    (l.warned ws).stats = l.stats := rfl
@[simp] theorem warnings_numbered (l : Ledger) : l.numbered.warnings = l.warnings := rfl
@[simp] theorem warnings_counted (f : Stats → Stats) (l : Ledger) :
    (l.counted f).warnings = l.warnings := rfl
@[simp] theorem warnings_warned (ws : List Warning) (l : Ledger) :
    (l.warned ws).warnings = l.warnings ++ ws := rfl

end Ledger

namespace Stats

def addStep (s : Stats) : Stats := { s with totalSteps := s.totalSteps + 1 }
def addStream (s : Stats) : Stats := { s with streamCount := s.streamCount + 1 }
def addWorkflowRef (s : Stats) : Stats := { s with workflowRefCount := s.workflowRefCount + 1 }
def addUnknown (s : Stats) : Stats := { s with unknownCount := s.unknownCount + 1 }
def addConditional (s : Stats) : Stats := { s with conditionalCount := s.conditionalCount + 1 }
def addSwitch (s : Stats) : Stats := { s with switchCount := s.switchCount + 1 }
def addLoop (s : Stats) : Stats := { s with loopCount := s.loopCount + 1 }

end Stats

/-! ## Leaves -/

namespace Leaf

def stem : Leaf → String
  | step .. => "step"
  | sagaStep .. => "saga_step"
  | stream .. => "stream"
  | workflowRef .. => "workflow_ref"
  | unknown .. => "unknown"

def name : Leaf → Option String
  | step name _ _ | sagaStep name _ _ => name
  | _ => none

def key : Leaf → Option String
  | step _ key _ | sagaStep _ key _ => key
  | _ => none

/-- The node that a leaf becomes. -/
def node (tag : Tag) : Leaf → Flow
  | step _ _ s => .step tag s
  | sagaStep _ _ s => .sagaStep tag s
  | stream s => .stream tag s
  | workflowRef ref => .workflowRef tag ref
  | unknown u => .unknown tag u

def count : Leaf → Stats → Stats
  | step .. | sagaStep .. => Stats.addStep
  | stream .. => Stats.addStream
  | workflowRef .. => Stats.addWorkflowRef
  | unknown .. => Stats.addUnknown

def warnings (location : Option Location) : Leaf → List Warning
  | workflowRef ref =>
    if ref.resolved then [] else [.unresolvedWorkflowRef ref.workflowName location]
  | _ => []

def isUnknown : Leaf → Bool
  | unknown .. => true
  | _ => false

@[simp] theorem walk_node (leaf : Leaf) (tag : Tag) : (leaf.node tag).walk = [leaf.node tag] := by
  cases leaf <;> exact Flow.walk_eq _

end Leaf

/-! ## Single runs -/

namespace Emit

theorem run_compose (ns : List Flow) (l : Ledger) :
    (compose ns).run l =
      if 1 < ns.length then ([.sequence { id := Id.next l.used "sequence" } ns], l.numbered)
      else (ns, l) := by
  match ns with
  | [] | [_] => rfl
  | _ :: _ :: _ => simp; rfl

/-- Joining nodes does not look at the statistics. -/
theorem run_compose_counted (ns : List Flow) (f : Stats → Stats) (l : Ledger) :
    (compose ns).run (l.counted f) =
      (((compose ns).run l).1, ((compose ns).run l).2.counted f) := by
  rw [run_compose, run_compose]
  split <;> rfl

theorem run_bind {α β : Type} (x : Emit α) (f : α → Emit β) (l : Ledger) :
    (x >>= f).run l = (f (x.run l).1).run (x.run l).2 := rfl

end Emit

namespace Emitter

/-- The tag that a node gets when `l` is the account. -/
def tagAt (e : Emitter) (l : Ledger) (stem : String) (origin : Node) (name key : Option String) :
    Tag :=
  ⟨Id.next l.used stem, name, key, e.location origin⟩

/-- A leaf becomes one node, but for unknown statements that are not to be reported. -/
theorem run_leaf (e : Emitter) (origin : Node) (leaf : Leaf) (l : Ledger) :
    (e.leaf origin leaf).run l =
      if leaf.isUnknown && !e.reportUnknown then ([], l)
      else ([leaf.node (e.tagAt l leaf.stem origin leaf.name leaf.key)],
        ((l.counted leaf.count).warned (leaf.warnings (e.location origin))).numbered) := by
  cases leaf with
  | step | sagaStep | stream => simp [Ledger.warned, Leaf.warnings, Leaf.isUnknown]; rfl
  | workflowRef ref =>
    cases h : ref.resolved <;>
      simp [Emitter.leaf, h, Ledger.warned, Leaf.warnings, Leaf.isUnknown] <;> rfl
  | unknown unknown =>
    cases h : e.reportUnknown <;>
      simp [Emitter.leaf, h, Ledger.warned, Leaf.warnings, Leaf.isUnknown] <;> rfl

theorem run_body (e : Emitter) (os : List Outline) (l : Ledger) :
    (e.body os).run l = (Emit.compose ((e.outlines os).run l).1).run ((e.outlines os).run l).2 :=
  rfl

theorem run_ifElse_none (e : Emitter) (origin : Node) (condition : String) (os : List Outline)
    (l : Ledger) :
    (e.outline (.ifElse origin condition os none)).run l =
      let c := (e.body os).run (l.counted Stats.addConditional)
      (e.conditional origin { text := condition } c.1 none).run c.2 :=
  rfl

theorem run_ifElse_some (e : Emitter) (origin : Node) (condition : String)
    (os ps : List Outline) (l : Ledger) :
    (e.outline (.ifElse origin condition os (some ps))).run l =
      let c := (e.body os).run (l.counted Stats.addConditional)
      let a := (e.body ps).run c.2
      (e.conditional origin { text := condition } c.1 (some a.1)).run a.2 :=
  rfl

theorem run_guarded (e : Emitter) (origin : Node) (condition : Condition) (os : List Outline)
    (l : Ledger) :
    (e.outline (.guarded origin condition os)).run l =
      let c := (e.body os).run (l.counted Stats.addConditional)
      (e.conditional origin condition c.1 none).run c.2 :=
  rfl

/-- The branches of a ternary are put in one place only when both are emitted. -/
theorem run_ternary (e : Emitter) (origin : Node) (condition : String) (os ps : List Outline)
    (l : Ledger) :
    (e.outline (.ternary origin condition os ps)).run l =
      let c := (e.outlines os).run l
      let a := (e.outlines ps).run c.2
      if Flow.hasWork c.1 || Flow.hasWork a.1 then
        let c' := (Emit.compose c.1).run (a.2.counted Stats.addConditional)
        let a' := (Emit.compose a.1).run c'.2
        (e.conditional origin { text := condition } c'.1 (some a'.1)).run a'.2
      else ([], a.2) := by
  rw [outline, Emit.run_bind, Emit.run_bind]
  split
  · next h => rw [if_pos h]; rfl
  · next h => rw [if_neg h]; rfl

theorem run_switch (e : Emitter) (origin : Node) (expression : String)
    (cases : List (Case Outline)) (l : Ledger) :
    (e.outline (.switch origin expression cases)).run l =
      let p := (e.cases cases).run l
      if p.1.any fun c => Flow.hasWork c.body then
        ([.switch (e.tagAt p.2 "switch" origin none none) expression p.1],
          (p.2.counted Stats.addSwitch).numbered)
      else ([], p.2) := by
  rw [outline, Emit.run_bind]
  split
  · next h => rw [if_pos h]; rfl
  · next h => rw [if_neg h]; rfl

theorem run_loop (e : Emitter) (origin : Node) (repetition : Repetition) (os : List Outline)
    (l : Ledger) :
    (e.outline (.loop origin repetition os)).run l =
      let p := (e.body os).run l
      if Flow.hasWork p.1 then
        ([.loop (e.tagAt p.2 "loop" origin none none) repetition p.1],
          (p.2.counted Stats.addLoop).numbered)
      else ([], p.2) := by
  rw [outline, Emit.run_bind, Emit.run_bind]
  split
  · next h => rw [run_body, if_pos h]; rfl
  · next h => rw [run_body, if_neg h]; rfl

end Emitter

/-! ## Derivations -/

namespace Flow

def isSequence : Flow → Bool
  | sequence .. => true
  | _ => false

end Flow

/-- How outlines are emitted. Bodies in one place hold at most one node, and what is joined to one
sequence holds no sequence itself. -/
inductive Emits (e : Emitter) : List Outline → Ledger → List Flow → Ledger → Prop
  | nil (l : Ledger) : Emits e [] l [] l
  | append {os ps : List Outline} {l m k : Ledger} {ns ms : List Flow} :
      Emits e os l ns m → Emits e ps m ms k → Emits e (os ++ ps) l (ns ++ ms) k
  | leaf (origin : Node) (leaf : Leaf) (l : Ledger) : (leaf.isUnknown → e.reportUnknown) →
      Emits e [.leaf origin leaf] l
        [leaf.node (e.tagAt l leaf.stem origin leaf.name leaf.key)]
        ((l.counted leaf.count).warned (leaf.warnings (e.location origin))).numbered
  | unreported (origin : Node) (leaf : Leaf) (l : Ledger) : leaf.isUnknown → !e.reportUnknown →
      Emits e [.leaf origin leaf] l [] l
  /-- Nodes next to each other are joined, possibly after later ones were emitted. -/
  | join {os : List Outline} {l m : Ledger} (xs : List Flow) {ns : List Flow} (ys : List Flow) :
      Emits e os l (xs ++ ns ++ ys) m → 1 < ns.length → (∀ f ∈ ns, !f.isSequence) →
      Emits e os l (xs ++ [.sequence { id := Id.next m.used "sequence" } ns] ++ ys) m.numbered
  | gather {branches : List (List Outline)} {l m : Ledger} {ns : List Flow} (origin : Node)
      (c : Combinator) (callee : String) (name : Option String) :
      Emits e branches.flatten l ns m →
      Emits e [.gather origin c callee name branches] l
        [c.node (e.tagAt m c.stem origin name none) callee ns] (m.counted c.count).numbered
  | adopt {body : List Outline} {l m : Ledger} {ns : List Flow} {f : Flow} (origin : Node)
      (c : Combinator) (callee : String) (name : Option String) :
      Emits e body l ns m → c.adopt? name ns = some f →
      Emits e [.enclose origin c callee name body] l [f] m
  | enclose {body : List Outline} {l m : Ledger} {ns : List Flow} (origin : Node)
      (c : Combinator) (callee : String) (name : Option String) :
      Emits e body l ns m → c.adopt? name ns = none →
      Emits e [.enclose origin c callee name body] l
        [c.node (e.tagAt m c.stem origin name none) callee ns] (m.counted c.count).numbered
  | ifElse {os : List Outline} {ps : Option (List Outline)} {l m : Ledger} {cs : List Flow}
      {as : Option (List Flow)} (origin : Node) (condition : String) :
      Emits e (os ++ ps.getD []) (l.counted Stats.addConditional) (cs ++ as.getD []) m →
      cs.length ≤ 1 → (∀ ns ∈ as, ns.length ≤ 1) →
      Emits e [.ifElse origin condition os ps] l
        [.conditional (e.tagAt m "conditional" origin none none) { text := condition } cs as]
        m.numbered
  | guarded {os : List Outline} {l m : Ledger} {cs : List Flow} (origin : Node)
      (condition : Condition) :
      Emits e os (l.counted Stats.addConditional) cs m → cs.length ≤ 1 →
      Emits e [.guarded origin condition os] l
        [.conditional (e.tagAt m "conditional" origin none none) condition cs none] m.numbered
  | ternary {os ps : List Outline} {l m : Ledger} {cs as : List Flow} (origin : Node)
      (condition : String) :
      Emits e (os ++ ps) l (cs ++ as) m → Flow.hasWork cs || Flow.hasWork as →
      cs.length ≤ 1 → as.length ≤ 1 →
      Emits e [.ternary origin condition os ps] l
        [.conditional (e.tagAt m "conditional" origin none none) { text := condition } cs
          (some as)] (m.counted Stats.addConditional).numbered
  | idleTernary {os ps : List Outline} {l m : Ledger} {cs as : List Flow} (origin : Node)
      (condition : String) :
      Emits e (os ++ ps) l (cs ++ as) m → !(Flow.hasWork cs || Flow.hasWork as) →
      Emits e [.ternary origin condition os ps] l [] m
  | switch {cases : List (Case Outline)} {l m : Ledger} {cs : List (Case Flow)} (origin : Node)
      (expression : String) :
      Emits e (cases.flatMap Case.body) l (cs.flatMap Case.body) m →
      (cs.any fun c => Flow.hasWork c.body) → (∀ c ∈ cs, c.body.length ≤ 1) →
      Emits e [.switch origin expression cases] l
        [.switch (e.tagAt m "switch" origin none none) expression cs]
        (m.counted Stats.addSwitch).numbered
  | idleSwitch {cases : List (Case Outline)} {l m : Ledger} {cs : List (Case Flow)}
      (origin : Node) (expression : String) :
      Emits e (cases.flatMap Case.body) l (cs.flatMap Case.body) m →
      !(cs.any fun c => Flow.hasWork c.body) → Emits e [.switch origin expression cases] l [] m
  | loop {os : List Outline} {l m : Ledger} {ns : List Flow} (origin : Node)
      (repetition : Repetition) :
      Emits e os l ns m → Flow.hasWork ns → ns.length ≤ 1 →
      Emits e [.loop origin repetition os] l
        [.loop (e.tagAt m "loop" origin none none) repetition ns]
        (m.counted Stats.addLoop).numbered
  | idleLoop {os : List Outline} {l m : Ledger} {ns : List Flow} (origin : Node)
      (repetition : Repetition) :
      Emits e os l ns m → !Flow.hasWork ns → Emits e [.loop origin repetition os] l [] m

/-! ## Runs are derivations -/

namespace Emits

variable {e : Emitter} {os : List Outline} {l m : Ledger} {ns : List Flow}

/-- A body is put in one place by joining its nodes, if there are several. -/
theorem compose (xs ys : List Flow) (h : Emits e os l (xs ++ ns ++ ys) m)
    (hs : ∀ f ∈ ns, !f.isSequence) :
    Emits e os l (xs ++ ((Emit.compose ns).run m).1 ++ ys) ((Emit.compose ns).run m).2 ∧
      ((Emit.compose ns).run m).1.length ≤ 1 := by
  rw [Emit.run_compose]
  split
  · next hn => exact ⟨h.join xs ys hn hs, by simp⟩
  · next hn => exact ⟨h, by simpa using hn⟩

theorem hasWork_compose (ns : List Flow) (m : Ledger) :
    Flow.hasWork ((Emit.compose ns).run m).1 = Flow.hasWork ns := by
  rw [Emit.run_compose]
  split
  · exact Flow.hasWork_sequence _ ns
  · rfl

theorem composed (h : Emits e os l ns m) (hs : ∀ f ∈ ns, !f.isSequence) :
    Emits e os l ((Emit.compose ns).run m).1 ((Emit.compose ns).run m).2 ∧
      ((Emit.compose ns).run m).1.length ≤ 1 := by
  simpa using compose [] [] (by simpa using h) hs

end Emits

namespace Combinator

@[simp] theorem walk_node (c : Combinator) (tag : Tag) (callee : String) (ns : List Flow) :
    (c.node tag callee ns).walk = c.node tag callee ns :: ns.flatMap Flow.walk := by
  cases c <;> exact Flow.walk_eq _

@[simp] theorem isSequence_node (c : Combinator) (tag : Tag) (callee : String) (ns : List Flow) :
    (c.node tag callee ns).isSequence = false := by
  cases c <;> rfl

/-- A node is adopted as it is, but for its name. -/
theorem eq_node_of_adopt? {c : Combinator} {name : Option String} {ns : List Flow} {f : Flow}
    (h : c.adopt? name ns = some f) :
    ∃ (d : Combinator) (tag : Tag) (callee : String) (cs : List Flow),
      ns = [d.node tag callee cs] ∧
        f = d.node { tag with name := name <|> tag.name } callee cs := by
  unfold adopt? at h
  split at h
  · next mode tag mode' callee cs =>
    cases h
    exact ⟨.parallel mode', tag, callee, cs, rfl, rfl⟩
  · next tag callee cs =>
    cases h
    exact ⟨.race, tag, callee, cs, rfl, rfl⟩
  · cases h

end Combinator

namespace Emitter

variable (e : Emitter)

/-- What a run of `e` on one outline or on several in a row does: it is a derivation, and no
sequence stands at the top of what it emits. -/
structure Runs (x : Emit (List Flow)) (os : List Outline) : Prop where
  emits (l : Ledger) : Emits e os l (x.run l).1 (x.run l).2
  not_isSequence (l : Ledger) : ∀ f ∈ (x.run l).1, !f.isSequence

/-- What a run of `e` on branches does. -/
def RunsBranches (branches : List (List Outline)) : Prop :=
  ∀ l : Ledger, Emits e branches.flatten l ((e.branches branches).run l).1
    ((e.branches branches).run l).2

/-- What a run of `e` on cases does. -/
def RunsCases (cases : List (Case Outline)) : Prop :=
  ∀ l : Ledger, Emits e (cases.flatMap Case.body) l
      (((e.cases cases).run l).1.flatMap Case.body) ((e.cases cases).run l).2 ∧
    ∀ c ∈ ((e.cases cases).run l).1, c.body.length ≤ 1

variable {e}

theorem runs_leaf (origin : Node) (leaf : Leaf) :
    e.Runs (e.outline (.leaf origin leaf)) [.leaf origin leaf] := by
  constructor
  · intro l
    rw [outline, run_leaf]
    split
    · next h =>
      simp only [Bool.and_eq_true] at h
      exact .unreported origin leaf l h.1 h.2
    · next h => exact .leaf origin leaf l (by simpa using h)
  · intro l f hf
    rw [outline, run_leaf] at hf
    split at hf
    · cases hf
    · obtain rfl := List.mem_singleton.1 hf
      cases leaf <;> rfl

theorem runs_gather {branches : List (List Outline)} (h : e.RunsBranches branches) (origin : Node)
    (c : Combinator) (callee : String) (name : Option String) :
    e.Runs (e.outline (.gather origin c callee name branches))
      [.gather origin c callee name branches] := by
  constructor
  · intro l
    exact .gather origin c callee name (h l)
  · intro l f hf
    obtain rfl := List.mem_singleton.1 hf
    simp

theorem runs_enclose {body : List Outline} (h : e.Runs (e.outlines body) body) (origin : Node)
    (c : Combinator) (callee : String) (name : Option String) :
    e.Runs (e.outline (.enclose origin c callee name body))
      [.enclose origin c callee name body] := by
  constructor
  · intro l
    rw [outline, Emit.run_bind]
    split
    · next f hf => exact .adopt origin c callee name (h.emits l) hf
    · next hf => exact .enclose origin c callee name (h.emits l) hf
  · intro l f hf
    rw [outline, Emit.run_bind] at hf
    split at hf
    · next g hg =>
      obtain ⟨d, tag, callee, cs, -, rfl⟩ := Combinator.eq_node_of_adopt? hg
      obtain rfl := List.mem_singleton.1 hf
      simp
    · obtain rfl := List.mem_singleton.1 hf
      simp

theorem Runs.body {os : List Outline} (h : e.Runs (e.outlines os) os) (l : Ledger) :
    Emits e os l ((e.body os).run l).1 ((e.body os).run l).2 ∧ ((e.body os).run l).1.length ≤ 1 :=
  (h.emits l).composed (h.not_isSequence l)

/-- An outline that becomes one node or none. -/
theorem runs_of_cases {x : Emit (List Flow)} {os : List Outline}
    (h : ∀ l, (∃ f m, x.run l = ([f], m) ∧ Emits e os l [f] m ∧ !f.isSequence) ∨
      ∃ m, x.run l = ([], m) ∧ Emits e os l [] m) : e.Runs x os := by
  constructor
  · intro l
    obtain ⟨f, m, hx, hm, -⟩ | ⟨m, hx, hm⟩ := h l <;> rw [hx] <;> exact hm
  · intro l g hg
    obtain ⟨f, m, hx, -, hf⟩ | ⟨m, hx, -⟩ := h l <;> rw [hx] at hg
    · obtain rfl := List.mem_singleton.1 hg
      exact hf
    · cases hg

theorem runs_ifElse {os : List Outline} {ps : Option (List Outline)}
    (h : e.Runs (e.outlines os) os) (h' : ∀ qs ∈ ps, e.Runs (e.outlines qs) qs) (origin : Node)
    (condition : String) :
    e.Runs (e.outline (.ifElse origin condition os ps)) [.ifElse origin condition os ps] := by
  refine runs_of_cases fun l => .inl ?_
  have hc := h.body (l.counted Stats.addConditional)
  cases ps with
  | none =>
    refine ⟨_, _, run_ifElse_none .., ?_, rfl⟩
    exact .ifElse origin condition (by simpa using hc.1) hc.2 (by simp)
  | some qs =>
    have ha := (h' qs rfl).body ((e.body os).run (l.counted Stats.addConditional)).2
    refine ⟨_, _, run_ifElse_some .., ?_, rfl⟩
    exact .ifElse origin condition (hc.1.append ha.1) hc.2 (by simpa using ha.2)

theorem runs_guarded {os : List Outline} (h : e.Runs (e.outlines os) os) (origin : Node)
    (condition : Condition) :
    e.Runs (e.outline (.guarded origin condition os)) [.guarded origin condition os] := by
  refine runs_of_cases fun l => .inl ⟨_, _, run_guarded .., ?_, rfl⟩
  have hc := h.body (l.counted Stats.addConditional)
  exact .guarded origin condition hc.1 hc.2

theorem runs_switch {cases : List (Case Outline)} (h : e.RunsCases cases) (origin : Node)
    (expression : String) :
    e.Runs (e.outline (.switch origin expression cases)) [.switch origin expression cases] := by
  refine runs_of_cases fun l => ?_
  obtain ⟨hl, hb⟩ := h l
  by_cases hw : ((e.cases cases).run l).1.any fun c => Flow.hasWork c.body
  · exact .inl ⟨_, _, (run_switch ..).trans (if_pos hw), .switch origin expression hl hw hb, rfl⟩
  · exact .inr ⟨_, (run_switch ..).trans (if_neg hw),
      .idleSwitch origin expression hl (by simpa using hw)⟩

theorem runs_loop {os : List Outline} (h : e.Runs (e.outlines os) os) (origin : Node)
    (repetition : Repetition) :
    e.Runs (e.outline (.loop origin repetition os)) [.loop origin repetition os] := by
  refine runs_of_cases fun l => ?_
  obtain ⟨hl, hb⟩ := h.body l
  by_cases hw : Flow.hasWork ((e.body os).run l).1
  · exact .inl ⟨_, _, (run_loop ..).trans (if_pos hw), .loop origin repetition hl hw hb, rfl⟩
  · exact .inr ⟨_, (run_loop ..).trans (if_neg hw),
      .idleLoop origin repetition hl (by simpa using hw)⟩

theorem runs_ternary {os ps : List Outline} (h : e.Runs (e.outlines os) os)
    (h' : e.Runs (e.outlines ps) ps) (origin : Node) (condition : String) :
    e.Runs (e.outline (.ternary origin condition os ps)) [.ternary origin condition os ps] := by
  refine runs_of_cases fun l => ?_
  obtain ⟨cs, m, hm⟩ : ∃ cs m, (e.outlines os).run l = (cs, m) := ⟨_, _, rfl⟩
  obtain ⟨as, k, hk⟩ : ∃ as k, (e.outlines ps).run m = (as, k) := ⟨_, _, rfl⟩
  have hl : Emits e (os ++ ps) l (cs ++ as) k := by
    simpa [hm, hk] using (h.emits l).append (h'.emits ((e.outlines os).run l).2)
  have hcs : ∀ f ∈ cs, !f.isSequence := by simpa [hm] using h.not_isSequence l
  have has : ∀ f ∈ as, !f.isSequence := by simpa [hk] using h'.not_isSequence m
  have hrun := run_ternary e origin condition os ps l
  simp only [hm, hk] at hrun
  by_cases hw : Flow.hasWork cs || Flow.hasWork as
  · rw [if_pos hw] at hrun
    obtain ⟨hc, hc'⟩ := hl.compose [] as hcs
    obtain ⟨ha, ha'⟩ := Emits.compose _ [] (by simpa using hc) has
    simp only [Emit.run_compose_counted] at hrun
    refine .inl ⟨_, _, hrun, ?_, rfl⟩
    refine .ternary origin condition (by simpa using ha) ?_ hc' ha'
    rw [Emits.hasWork_compose, Emits.hasWork_compose]
    exact hw
  · rw [if_neg hw] at hrun
    exact .inr ⟨k, hrun, .idleTernary origin condition hl (by simpa using hw)⟩

theorem runs_cons {o : Outline} {os : List Outline} (h : e.Runs (e.outline o) [o])
    (h' : e.Runs (e.outlines os) os) : e.Runs (e.outlines (o :: os)) (o :: os) := by
  constructor
  · intro l
    exact (h.emits l).append (h'.emits _)
  · intro l f hf
    obtain hf | hf := List.mem_append.1 hf
    · exact h.not_isSequence l f hf
    · exact h'.not_isSequence _ f hf

theorem runsBranches_cons {os : List Outline} {branches : List (List Outline)}
    (h : e.Runs (e.outlines os) os) (h' : e.RunsBranches branches) :
    e.RunsBranches (os :: branches) := by
  intro l
  exact (h.body l).1.append (h' _)

theorem runsCases_cons {os : List Outline} {cases : List (Case Outline)}
    (h : e.Runs (e.outlines os) os) (h' : e.RunsCases cases) (value : Option String)
    (isDefault : Bool) : e.RunsCases (⟨value, isDefault, os⟩ :: cases) := by
  intro l
  obtain ⟨hl, hb⟩ := h.body l
  obtain ⟨hk, hc⟩ := h' ((e.body os).run l).2
  exact ⟨hl.append hk, List.forall_mem_cons.2 ⟨hb, hc⟩⟩

theorem runs_outlines (e : Emitter) (os : List Outline) : e.Runs (e.outlines os) os := by
  induction os using Outline.inductionAll (fun o => e.Runs (e.outline o) [o]) e.RunsBranches
    e.RunsCases with
  | leaf n leaf => exact runs_leaf n leaf
  | gather n c callee name branches ih => exact runs_gather ih n c callee name
  | enclose n c callee name body ih => exact runs_enclose ih n c callee name
  | ifThen n condition os ih => exact runs_ifElse ih (by simp) n condition
  | ifElse n condition os ps ih ih' => exact runs_ifElse ih (by simpa using ih') n condition
  | ternary n condition os ps ih ih' => exact runs_ternary ih ih' n condition
  | guarded n condition body ih => exact runs_guarded ih n condition
  | switch n expression cases ih => exact runs_switch ih n expression
  | loop n repetition body ih => exact runs_loop ih n repetition
  | nil => exact ⟨fun l => .nil l, fun l f hf => nomatch hf⟩
  | cons o os ih ih' => exact runs_cons ih ih'
  | noBranch => exact fun l => .nil l
  | branch os branches ih ih' => exact runsBranches_cons ih ih'
  | noCase => exact fun l => ⟨.nil l, fun c hc => nomatch hc⟩
  | case value isDefault os cases ih ih' => exact runsCases_cons ih ih' value isDefault

/-- What is emitted in one place is derivable. -/
theorem emits_body (e : Emitter) (os : List Outline) (l : Ledger) :
    Emits e os l ((e.body os).run l).1 ((e.body os).run l).2 :=
  ((e.runs_outlines os).body l).1

end Emitter

end FlowShape
