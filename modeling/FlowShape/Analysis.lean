import FlowShape.Error
import FlowShape.Workflow.Assembly

/-!
# Analyses

The analysis of one source file, and sessions in which identifiers run on from file to file.
-/

namespace FlowShape

structure Analysis where
  filePath : String
  workflows : List Workflow
  warnings : List Warning

namespace Analysis

def toJson (a : Analysis) : Json :=
  .object [("filePath", .string a.filePath),
    ("workflows", .array (a.workflows.map Workflow.toJson)),
    ("warnings", .array (a.warnings.map Warning.toJson))]

/-- The warnings as the command line prints them. -/
def notices (a : Analysis) : String := String.join (a.warnings.map Warning.notice)

/-- The printed lines that start a warning. -/
def headlines (a : Analysis) : List String :=
  (Text.lines a.notices).filter (Warning.mark.isPrefixOf ·)

/-- Analyses a file after a number of used identifiers, and tells how many are used then. Files with
something wrong in their syntax are refused. -/
def run (options : Options) (now : Timestamp) (src : Source) (tree : Node) (used : Nat) :
    Except Error (Analysis × Nat) := do
  src.checkTree tree
  let assembly : Assembly :=
    ⟨src, options, src.fileBindings tree options, options.analyzedAt.getD now⟩
  let (workflows, warnings, used) := assembly.assemble (src.entryPoints tree options) used
  let workflows := if options.resolveReferences then Workflow.resolve workflows else workflows
  return (⟨src.path, workflows, warnings⟩, used)

/-- Analyses a file by itself. -/
def ofSource (options : Options) (now : Timestamp) (src : Source) (tree : Node) :
    Except Error Analysis :=
  (run options now src tree 0).map (·.1)

end Analysis

/-- A run of analyses with the same options. -/
structure Session where
  options : Options
  now : Timestamp
  used : Nat := 0

namespace Session

/-- Analyses a file. A file that is refused leaves the session as it was. -/
def analyze (s : Session) (src : Source) (tree : Node) : Except Error Analysis × Session :=
  match Analysis.run s.options s.now src tree s.used with
  | .ok (analysis, used) => (.ok analysis, { s with used })
  | .error error => (.error error, s)

/-- Starts the identifiers again from one. -/
def reset (s : Session) : Session := { s with used := 0 }

end Session

end FlowShape
