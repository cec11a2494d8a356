import FlowShape.Text.Pattern

/-!
# Paths

Paths are texts with segments between slashes. Empty segments and single dots add nothing to a
path.
-/

namespace FlowShape.Path

/-- All segments of a path, as they stand. -/
def rawSegments (path : String) : List String :=
  (Text.split '/' path.toList).map String.ofList

/-- The segments of a path that say something. -/
def segments (path : String) : List String :=
  (rawSegments path).filter fun s => s != "" && s != "."

/-- The name of the file or directory that a path ends in. -/
def fileName? (path : String) : Option String :=
  (segments path).getLast?.filter (· != "..")

/-- What follows the last dot of a file name, unless the name starts there. -/
def extension? (path : String) : Option String := do
  let name ← fileName? path
  match (Text.split '.' name.toList).reverse with
  | last :: first :: rest =>
    if rest.isEmpty && first.isEmpty then none else some (String.ofList last)
  | _ => none

/-- The path of an entry of a directory. -/
def join (path name : String) : String :=
  if path = "" ∨ path.toList.getLast? = some '/' then path ++ name else path ++ "/" ++ name

/-- Lists of segments are compared segment by segment, the shorter one first. -/
def segmentsLe : List String → List String → Bool
  | [], _ => true
  | _ :: _, [] => false
  | s :: ss, t :: ts => s < t || (s == t && segmentsLe ss ts)

def le (p q : String) : Bool := segmentsLe (segments p) (segments q)

end FlowShape.Path
