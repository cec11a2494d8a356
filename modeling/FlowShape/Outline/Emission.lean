import FlowShape.Options
import FlowShape.Outline.Basic
import FlowShape.Workflow.Stats
import FlowShape.Workflow.Warning

/-!
# Emission

Turns an outline into flow nodes. Nodes are numbered when they are complete, so a node comes after
everything inside it. Loops, switches and ternaries around bodies without work are left out; what
was numbered or counted inside them stays so. A body of several nodes becomes one sequence where a
single node is wanted.
-/

namespace FlowShape

/-- The account that emission keeps: how many identifiers are used, what was met, and warnings. -/
structure Ledger where
  /-- Grows by one with each node that is built, so it is never large; see `Id.next`. -/
  used : Nat := 0
  stats : Stats := {}
  warnings : List Warning := []

abbrev Emit := StateM Ledger

/-- How nodes are emitted. -/
structure Emitter where
  source : Source
  includeLocations : Bool
  reportUnknown : Bool

namespace Emit

/-- Uses up the next identifier. -/
def fresh (stem : String) : Emit Id :=
  modifyGet fun ledger => (Id.next ledger.used stem, { ledger with used := ledger.used + 1 })

def count (f : Stats → Stats) : Emit Unit :=
  modify fun ledger => { ledger with stats := f ledger.stats }

def warn (warning : Warning) : Emit Unit :=
  modify fun ledger => { ledger with warnings := ledger.warnings ++ [warning] }

/-- Several nodes become one sequence. -/
def compose (nodes : List Flow) : Emit (List Flow) :=
  match nodes with
  | [] | [_] => pure nodes
  | _ => do
    let id ← fresh "sequence"
    return [.sequence { id } nodes]

end Emit

namespace Combinator

def node (combinator : Combinator) (tag : Tag) (callee : String) (children : List Flow) : Flow :=
  match combinator with
  | .parallel mode => .parallel tag mode callee children
  | .race => .race tag callee children

def stem : Combinator → String
  | .parallel _ => "parallel"
  | .race => "race"

def count (combinator : Combinator) (s : Stats) : Stats :=
  match combinator with
  | .parallel _ => { s with parallelCount := s.parallelCount + 1 }
  | .race => { s with raceCount := s.raceCount + 1 }

/-- A lone node of the same sort as the combinator, under a new name if there is one. -/
def adopt? (combinator : Combinator) (name : Option String) (nodes : List Flow) : Option Flow :=
  match combinator, nodes with
  | .parallel _, [.parallel tag mode callee children] =>
    some (.parallel { tag with name := name <|> tag.name } mode callee children)
  | .race, [.race tag callee children] =>
    some (.race { tag with name := name <|> tag.name } callee children)
  | _, _ => none

end Combinator

namespace Emitter

def location (e : Emitter) (origin : Node) : Option Location :=
  if e.includeLocations then some (e.source.location origin) else none

/-- The tag of the next node. -/
def tag (e : Emitter) (stem : String) (origin : Node) (name key : Option String) : Emit Tag := do
  return ⟨← Emit.fresh stem, name, key, e.location origin⟩

def leaf (e : Emitter) (origin : Node) : Leaf → Emit (List Flow)
  | .step name key step => do
    Emit.count fun s => { s with totalSteps := s.totalSteps + 1 }
    return [.step (← e.tag "step" origin name key) step]
  | .sagaStep name key step => do
    Emit.count fun s => { s with totalSteps := s.totalSteps + 1 }
    return [.sagaStep (← e.tag "saga_step" origin name key) step]
  | .stream stream => do
    Emit.count fun s => { s with streamCount := s.streamCount + 1 }
    return [.stream (← e.tag "stream" origin none none) stream]
  | .workflowRef ref => do
    Emit.count fun s => { s with workflowRefCount := s.workflowRefCount + 1 }
    let tag ← e.tag "workflow_ref" origin none none
    if !ref.resolved then
      Emit.warn (.unresolvedWorkflowRef ref.workflowName tag.location)
    return [.workflowRef tag ref]
  | .unknown unknown =>
    if e.reportUnknown then do
      Emit.count fun s => { s with unknownCount := s.unknownCount + 1 }
      return [.unknown (← e.tag "unknown" origin none none) unknown]
    else return []

/-- A combinator node around its children. -/
def combinator (e : Emitter) (origin : Node) (combinator : Combinator) (callee : String)
    (name : Option String) (children : List Flow) : Emit (List Flow) := do
  Emit.count combinator.count
  return [combinator.node (← e.tag combinator.stem origin name none) callee children]

def conditional (e : Emitter) (origin : Node) (condition : Condition) (consequent : List Flow)
    (alternate : Option (List Flow)) : Emit (List Flow) := do
  return [.conditional (← e.tag "conditional" origin none none) condition consequent alternate]

mutual

def outline (e : Emitter) : Outline → Emit (List Flow)
  | .leaf origin leaf => e.leaf origin leaf
  | .gather origin combinator callee name branches => do
    e.combinator origin combinator callee name (← e.branches branches)
  | .enclose origin combinator callee name body => do
    let nodes ← e.outlines body
    match combinator.adopt? name nodes with
    | some node => return [node]
    | none => e.combinator origin combinator callee name nodes
  | .ifElse origin condition consequent none => do
    Emit.count fun s => { s with conditionalCount := s.conditionalCount + 1 }
    let consequent ← Emit.compose (← e.outlines consequent)
    e.conditional origin { text := condition } consequent none
  | .ifElse origin condition consequent (some alternate) => do
    Emit.count fun s => { s with conditionalCount := s.conditionalCount + 1 }
    let consequent ← Emit.compose (← e.outlines consequent)
    let alternate ← Emit.compose (← e.outlines alternate)
    e.conditional origin { text := condition } consequent (some alternate)
  | .ternary origin condition consequent alternate => do
    let consequent ← e.outlines consequent
    let alternate ← e.outlines alternate
    if Flow.hasWork consequent || Flow.hasWork alternate then
      Emit.count fun s => { s with conditionalCount := s.conditionalCount + 1 }
      let consequent ← Emit.compose consequent
      let alternate ← Emit.compose alternate
      e.conditional origin { text := condition } consequent (some alternate)
    else return []
  | .guarded origin condition body => do
    Emit.count fun s => { s with conditionalCount := s.conditionalCount + 1 }
    let body ← Emit.compose (← e.outlines body)
    e.conditional origin condition body none
  | .switch origin expression cases => do
    let cases ← e.cases cases
    if cases.any fun c => Flow.hasWork c.body then
      Emit.count fun s => { s with switchCount := s.switchCount + 1 }
      return [.switch (← e.tag "switch" origin none none) expression cases]
    else return []
  | .loop origin repetition body => do
    let body ← Emit.compose (← e.outlines body)
    if Flow.hasWork body then
      Emit.count fun s => { s with loopCount := s.loopCount + 1 }
      return [.loop (← e.tag "loop" origin none none) repetition body]
    else return []

def outlines (e : Emitter) : List Outline → Emit (List Flow)
  | [] => return []
  | o :: os => do
    let nodes ← e.outline o
    let rest ← e.outlines os
    return nodes ++ rest

/-- The branches of a combinator, each of which is at most one node. -/
def branches (e : Emitter) : List (List Outline) → Emit (List Flow)
  | [] => return []
  | branch :: rest => do
    let nodes ← Emit.compose (← e.outlines branch)
    let others ← e.branches rest
    return nodes ++ others

def cases (e : Emitter) : List (Case Outline) → Emit (List (Case Flow))
  | [] => return []
  | ⟨value, isDefault, body⟩ :: rest => do
    let body ← Emit.compose (← e.outlines body)
    let others ← e.cases rest
    return ⟨value, isDefault, body⟩ :: others

end

/-- The nodes of a whole body in one place. -/
def body (e : Emitter) (outlines : List Outline) : Emit (List Flow) := do
  Emit.compose (← e.outlines outlines)

end Emitter

end FlowShape
