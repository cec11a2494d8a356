import FlowShape.Files.Tree
import FlowShape.Names

/-!
# Source files of a directory

The files that are analysed with a directory: those with an extension of the language, without
declaration files and without installed packages.
-/

namespace FlowShape

namespace Path

/-- The extensions of source files. -/
def sourceExtensions : List String :=
  ["ts", "tsx", "mts", "cts", "js", "jsx", "mjs", "cjs"]

/-- Whether a path is one of a source file, and not of declarations only. -/
def isSource (path : String) : Bool :=
  (extension? path).any (· ∈ sourceExtensions) && !".d.ts".toList.isSuffixOf path.toList

/-- The directory of installed packages. -/
def packages : String := "node_modules"

end Path

namespace FileTree

mutual

/-- The source files at or below a path, a directory's entries by name and each directory in its
place. Installed packages are left out, and so are special files and files whose path is too long to
be followed. -/
def sourceFilesAt (path : String) : FileTree → List String
  | file _ => if Path.isSource path && path.utf8ByteSize ≤ maxPathBytes then [path] else []
  | special _ => []
  | directory entries => ((sourceFilesIn path entries).mergeSort (·.1 ≤ ·.1)).flatMap (·.2)

/-- The source files of each entry of a directory. -/
def sourceFilesIn (path : String) : List (String × FileTree) → List (String × List String)
  | [] => []
  | (name, entry) :: rest =>
    if name = Path.packages then sourceFilesIn path rest
    else (name, sourceFilesAt (Path.join path name) entry) :: sourceFilesIn path rest

end

/-- The source files at or below a path in the order of paths. -/
def sourceFiles (root : FileTree) (path : String) (cwd : List String := []) : List String :=
  match root.find path cwd with
  | .ok t =>
    if (Path.fileName? path).getD path = Path.packages then []
    else (sourceFilesAt path t).mergeSort Path.le
  | .error _ => []

end FileTree

end FlowShape
