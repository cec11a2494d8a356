import FlowShape.Analysis
import FlowShape.Files.Listing

/-!
# Analyses of files and directories

Each file of a directory is analysed by itself, in the order of paths; the first one that cannot be
read or is refused ends the analysis.
-/

namespace FlowShape

namespace File

/-- The text of a file. -/
def text (f : File) : Except ReadFailure String :=
  match String.fromUTF8? f.bytes with
  | some text => .ok text
  | none => .error .notUtf8

/-- A file as a source, with its syntax tree. -/
def source (f : File) (path : String) : Except Error (Source × Node) := do
  let text ← f.text.mapError (Error.unreadable path)
  match f.tree with
  | some tree => return (Source.ofString path text, tree)
  | none => throw (.unparsed path)

end File

namespace FileTree

/-- Reads the source file at a path. -/
def readSource (root : FileTree) (path : String) (cwd : List String := []) :
    Except Error (Source × Node) := do
  let file ← (root.read path cwd).mapError (Error.unreadable path)
  file.source path

/-- Analyses the file at a path. -/
def analyzeFile (root : FileTree) (options : Options) (now : Timestamp) (path : String)
    (cwd : List String := []) : Except Error Analysis := do
  let (src, tree) ← root.readSource path cwd
  Analysis.ofSource options now src tree

/-- Analyses files one after the other in one session. -/
def analyzeInSession (root : FileTree) (cwd : List String) (session : Session) :
    List String → Except Error (List Analysis)
  | [] => .ok []
  | path :: rest => do
    let (src, tree) ← root.readSource path cwd
    let (result, session) := session.reset.analyze src tree
    let analysis ← result
    return analysis :: (← root.analyzeInSession cwd session rest)

/-- Analyses the source files at or below a directory. -/
def analyzeDirectory (root : FileTree) (options : Options) (now : Timestamp) (path : String)
    (cwd : List String := []) : Except Error (List Analysis) :=
  if root.isDirectory path cwd then
    root.analyzeInSession cwd { options, now } (root.sourceFiles path cwd)
  else .error (.unreadable path .notADirectory)

end FileTree

end FlowShape
