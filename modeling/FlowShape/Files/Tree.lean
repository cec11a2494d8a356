import FlowShape.Error
import FlowShape.Path

/-!
# File trees

Files and directories, and how paths lead through them. A file tree is what the topmost directory of
a file system holds. A path that starts with a slash leads from there; any other one leads from the
working directory, which is given by the names that lead to it from the top.
-/

namespace FlowShape

/-- The bytes of a file, and the syntax tree of its text if a parser gave one. -/
structure File where
  bytes : ByteArray
  tree : Option Node

inductive FileTree where
  /-- A regular file, with what reading it gives. -/
  | file (reading : Except ReadFailure File)
  /-- What is neither a regular file nor a directory, such as a pipe, a socket or a device. -/
  | special (reading : Except ReadFailure File)
  | directory (entries : List (String × FileTree))

namespace FileTree

/-- The most bytes that a name in a directory can have. -/
def maxNameBytes : Nat := 255

/-- The most bytes that a path can have. -/
def maxPathBytes : Nat := 4095

/-- Follows the segments of a path from a directory or file; `above` holds the enclosing
directories, the nearest first. Only a directory has segments after it, be they empty. The topmost
directory is its own parent. -/
def follow (above : List FileTree) (t : FileTree) : List String → Except ReadFailure FileTree
  | [] => .ok t
  | segment :: rest =>
    match t with
    | file _ | special _ => .error .throughFile
    | directory entries =>
      if segment = "" ∨ segment = "." then follow above t rest
      else if segment = ".." then
        match above with
        | parent :: above => follow above parent rest
        | [] => follow [] t rest
      else if maxNameBytes < segment.utf8ByteSize then .error .nameTooLong
      else match entries.lookup segment with
        | some entry => follow (t :: above) entry rest
        | none => .error .missing

/-- All segments that lead from the top to where a path leads, those of the working directory
included. -/
def route (cwd : List String) (path : String) : List String :=
  (if path.toList.head? = some '/' then [] else cwd) ++ Path.rawSegments path

/-- What a path leads to. The working directory is the topmost one unless said otherwise. -/
def find (root : FileTree) (path : String) (cwd : List String := []) :
    Except ReadFailure FileTree :=
  if path.toList.contains '\x00' then .error .nullInPath
  else if maxPathBytes < path.utf8ByteSize then .error .nameTooLong
  else if path = "" then .error .missing
  else follow [] root (route cwd path)

def isDirectory (root : FileTree) (path : String) (cwd : List String := []) : Bool :=
  match root.find path cwd with
  | .ok (directory _) => true
  | _ => false

/-- The file at a path. -/
def read (root : FileTree) (path : String) (cwd : List String := []) : Except ReadFailure File :=
  match root.find path cwd with
  | .ok (file reading) | .ok (special reading) => reading
  | .ok (directory _) => .error .isDirectory
  | .error failure => .error failure

/-! ## Building -/

/-- Puts a file tree at the end of a list of segments, with the directories on the way. -/
def insertAt (item : FileTree) : List String → FileTree → FileTree
  | [], _ => item
  | segment :: rest, t =>
    let entries := match t with
      | directory entries => entries
      | file _ | special _ => []
    let old := (entries.lookup segment).getD (directory [])
    directory ((entries.filter (·.1 != segment)) ++ [(segment, insertAt item rest old)])

/-- Makes a directory at the end of a list of segments unless there is one. -/
def makeDirectory (segments : List String) (root : FileTree) : FileTree :=
  match follow [] root segments with
  | .ok (directory _) => root
  | _ => insertAt (directory []) segments root

/-- Does something at the end of a path, with the segments that lead there. Two dots go back up from
a directory, which is made if need be; `above` holds the segments so far, the last one first. -/
def place (put : List String → FileTree → FileTree) (above : List String) (root : FileTree) :
    List String → FileTree
  | [] => put above.reverse root
  | segment :: rest =>
    if segment = ".." then place put above.tail (makeDirectory above.reverse root) rest
    else place put (segment :: above) root rest

/-- Puts a file at a path. -/
def insertFile (root : FileTree) (path : String) (f : File) : FileTree :=
  place (insertAt (file (.ok f))) [] root (Path.segments path)

/-- Makes a directory at a path unless there is one. -/
def insertDirectory (root : FileTree) (path : String) : FileTree :=
  place makeDirectory [] root (Path.segments path)

end FileTree

end FlowShape
