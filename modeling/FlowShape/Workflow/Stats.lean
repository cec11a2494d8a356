import FlowShape.Json

/-!
# Statistics of a workflow

How many constructs of each sort were met while a workflow was reported.
-/

namespace FlowShape

structure Stats where
  totalSteps : Nat := 0
  conditionalCount : Nat := 0
  switchCount : Nat := 0
  loopCount : Nat := 0
  parallelCount : Nat := 0
  raceCount : Nat := 0
  streamCount : Nat := 0
  workflowRefCount : Nat := 0
  unknownCount : Nat := 0
  deriving DecidableEq

namespace Stats

def toJson (s : Stats) : Json :=
  .object [
    ("totalSteps", .nat s.totalSteps), ("conditionalCount", .nat s.conditionalCount),
    ("switchCount", .nat s.switchCount), ("loopCount", .nat s.loopCount),
    ("parallelCount", .nat s.parallelCount), ("raceCount", .nat s.raceCount),
    ("streamCount", .nat s.streamCount), ("workflowRefCount", .nat s.workflowRefCount),
    ("unknownCount", .nat s.unknownCount)]

end Stats

end FlowShape
