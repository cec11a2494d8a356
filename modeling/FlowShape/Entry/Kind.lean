/-!
# Kinds of entry points

A workflow is defined by name for later calls, or run on the spot; each comes as a plain workflow
and as a saga.
-/

namespace FlowShape

inductive EntryKind where
  | createWorkflow | run | createSagaWorkflow | runSaga
  deriving DecidableEq

namespace EntryKind

/-- The kinds in the order in which entry points are reported. -/
def all : List EntryKind := [.createWorkflow, .run, .createSagaWorkflow, .runSaga]

/-- The name of the library function. -/
def name : EntryKind → String
  | createWorkflow => "createWorkflow"
  | run => "run"
  | createSagaWorkflow => "createSagaWorkflow"
  | runSaga => "runSaga"

theorem name_inj {k l : EntryKind} (h : k.name = l.name) : k = l := by
  cases k <;> cases l <;> simp_all [name]

def isSaga : EntryKind → Bool
  | createSagaWorkflow | runSaga => true
  | createWorkflow | run => false

/-- Whether a call only defines a workflow, which is then called by the name it is given. -/
def isDefinition : EntryKind → Bool
  | createWorkflow | createSagaWorkflow => true
  | run | runSaga => false

end EntryKind

end FlowShape
