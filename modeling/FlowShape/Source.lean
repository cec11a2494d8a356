import FlowShape.Text.Bytes
import FlowShape.Text.Blank
import FlowShape.Text.Pattern
import FlowShape.Tree.Node

/-!
# Source files

A source file is its path, as it was given, and its text. Nodes refer to the text by byte offsets.
-/

namespace FlowShape

structure Source where
  path : String
  chars : List Char

/-- A place in a text: rows and columns count from zero, columns in bytes. -/
structure Position where
  row : Nat
  column : Nat
  deriving DecidableEq

namespace Position

/-- The place `offset` bytes after `p`, if the text from `p` on is `cs`. Only a line feed starts a
new row. -/
def advance (p : Position) : Nat → List Char → Position
  | 0, _ => p
  | _ + 1, [] => p
  | offset + 1, c :: cs =>
    if offset + 1 < c.utf8Size then ⟨p.row, p.column + (offset + 1)⟩
    else if c = '\n' then advance ⟨p.row + 1, 0⟩ offset cs
    else advance ⟨p.row, p.column + c.utf8Size⟩ (offset + 1 - c.utf8Size) cs

end Position

/-- A stretch of a source file. Lines count from one, columns from zero in bytes. Where the stretch
ends need not be told. -/
structure Location where
  filePath : String
  line : Nat
  column : Nat
  endLine : Option Nat
  endColumn : Option Nat
  deriving DecidableEq

namespace Source

def ofString (path text : String) : Source := ⟨path, text.toList⟩

def slice (src : Source) (start stop : Nat) : String :=
  String.ofList (Text.slice start stop src.chars)

/-- The text that a node covers. -/
def text (src : Source) (n : Node) : String := src.slice n.start n.stop

/-- The text from the start of a node up to the start of another. -/
def textUpTo (src : Source) (n inner : Node) : String := src.slice n.start inner.start

/-- The row and column of an offset. A parser hands them out with each node, for the offsets where
it starts and stops; they follow from the text, so nodes do not carry them. -/
def position (src : Source) (offset : Nat) : Position :=
  Position.advance ⟨0, 0⟩ offset src.chars

/-- The number of the line on which a node starts. -/
def line (src : Source) (n : Node) : Nat := (src.position n.start).row + 1

def location (src : Source) (n : Node) : Location :=
  let start := src.position n.start
  let stop := src.position n.stop
  ⟨src.path, start.row + 1, start.column, some (stop.row + 1), some stop.column⟩

end Source

end FlowShape
