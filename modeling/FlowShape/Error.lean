import FlowShape.Source

/-!
# Errors

Why a source file cannot be analysed at all.
-/

namespace FlowShape

/-- Why a file cannot be read. -/
inductive ReadFailure where
  | missing
  | isDirectory
  /-- The path leads through a file as if it were a directory. -/
  | throughFile
  /-- The path, or a name looked up in a directory, is longer than the system allows. -/
  | nameTooLong
  /-- The path holds a null character, which no file name can. -/
  | nullInPath
  | notUtf8
  /-- A directory was asked for. -/
  | notADirectory
  | other (message : String)
  deriving DecidableEq

namespace ReadFailure

def message : ReadFailure → String
  | missing => "No such file or directory (os error 2)"
  | isDirectory => "Is a directory (os error 21)"
  | throughFile => "Not a directory (os error 20)"
  | nameTooLong => "File name too long (os error 36)"
  | nullInPath => "file name contained an unexpected NUL byte"
  | notUtf8 => "stream did not contain valid UTF-8"
  | notADirectory => "not a directory"
  | other message => message

end ReadFailure

/-- What is wrong at a place in a source file. -/
inductive Flaw where
  | missing (token : String)
  | unexpected (snippet : String)
  /-- Something is wrong, but no place was found. -/
  | somewhere
  | other (message : String)
  deriving DecidableEq

namespace Flaw

def message : Flaw → String
  | missing token => "missing `" ++ token ++ "`"
  | unexpected snippet => "unexpected `" ++ snippet ++ "`"
  | somewhere => "invalid syntax"
  | other message => message

end Flaw

inductive Error where
  | unreadable (path : String) (failure : ReadFailure)
  | noParser
  | unparsed (path : String)
  | flawed (path : String) (line column : Nat) (flaw : Flaw)
  deriving DecidableEq

namespace Error

def kind : Error → String
  | unreadable .. => "IoError"
  | noParser => "ParserInitFailed"
  | unparsed .. => "ParseFailed"
  | flawed .. => "SyntaxError"

def message : Error → String
  | unreadable path failure => "Failed to read '" ++ path ++ "': " ++ failure.message
  | noParser => "Failed to initialize parser"
  | unparsed path => "Failed to parse file: " ++ path
  | flawed path line column flaw =>
    "Syntax error in " ++ path ++ ":" ++ toString line ++ ":" ++ toString column ++ ": " ++
      flaw.message

def code : Error → String
  | unreadable .. => "awaitly::io::read_error"
  | noParser => "awaitly::parse::init_failed"
  | unparsed .. => "awaitly::parse::parse_failed"
  | flawed .. => "awaitly::parse::syntax_error"

def help? : Error → Option String
  | flawed .. => some "The analyzer only accepts sources that parse without errors."
  | _ => none

end Error

namespace Node

/-- Whether a node is itself wrong. -/
def isFlaw (n : Node) : Bool := n.label.unexpected || n.label.missing

/-- The first wrong node at or below those of the agenda. Only trees marked as flawed are searched,
punctuation included. -/
def firstFlaw? : List Node → Option Node
  | [] => none
  | n :: rest =>
    if n.isFlaw then some n
    else firstFlaw? ((if n.label.flawed then n.children else []) ++ rest)
termination_by agenda => sizeAll agenda
decreasing_by
  have := n.size_eq
  split <;> simp only [sizeAll_append, sizeAll] <;> omega

end Node

namespace Source

/-- What is wrong with a node. Of unexpected text the start is quoted. -/
def flaw (src : Source) (n : Node) : Flaw :=
  if n.label.missing then .missing n.kind.name
  else .unexpected (String.ofList (Text.trim ((src.text n).toList.take 40)))

/-- Refuses trees with something wrong in them. -/
def checkTree (src : Source) (tree : Node) : Except Error Unit :=
  if tree.label.flawed then
    match Node.firstFlaw? [tree] with
    | some n =>
      let place := src.position n.start
      .error (.flawed src.path (place.row + 1) place.column (src.flaw n))
    | none => .error (.flawed src.path 1 0 .somewhere)
  else .ok ()

end Source

end FlowShape
