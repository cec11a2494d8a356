import FlowShape.Text.Pattern
import FlowShape.Tree.Node

/-!
# Listings of syntax trees

A tree can be listed flat: a row for each node in preorder, with the number of its direct children.
As text a row is a line of words: the kind, the flags, the offsets of start and end, the number of
children, and the field if there is one.
-/

namespace FlowShape

structure Row where
  label : Label
  childCount : Nat

namespace Row

/-- A row from the names of its kind and field and the sum of its flags: 1 for a named node, 2 for a
missing one, 4 for a flawed subtree and 8 for unexpected text. -/
def ofParts (kind : String) (flags start stop : Nat) (field : String) (childCount : Nat) : Row where
  label := {
    kind := Kind.ofName kind
    start
    stop
    field := Field.ofText? field
    named := flags.testBit 0
    missing := flags.testBit 1
    flawed := flags.testBit 2
    unexpected := flags.testBit 3 }
  childCount := childCount

/-- The row that a line writes. -/
def ofLine? (line : List Char) : Option Row := do
  let words := ((Text.split ' ' line).filter (· != [])).map String.ofList
  let (kind, numbers, field) ← match words with
    | [kind, a, b, c, d] => some (kind, [a, b, c, d], "")
    | [kind, a, b, c, d, field] => some (kind, [a, b, c, d], field)
    | _ => none
  match ← numbers.mapM String.toNat? with
  | [flags, start, stop, childCount] => some (ofParts kind flags start stop field childCount)
  | _ => none

end Row

namespace Node

/-- Joins the trees already read with the row before them: its children are the next trees. -/
def join (row : Row) (later : List Node) : List Node :=
  mk row.label (later.take row.childCount) :: later.drop row.childCount

/-- The trees listed one after the other by the rows. -/
def forest (rows : List Row) : List Node := rows.foldr join []

/-- The tree listed by the rows. -/
def ofRows? (rows : List Row) : Option Node :=
  match forest rows with
  | [n] => some n
  | _ => none

/-- The tree listed by lines of text. -/
def ofLines? (lines : List (List Char)) : Option Node := do
  ofRows? (← lines.mapM Row.ofLine?)

/-- The tree listed by a text. Empty lines in it say nothing. -/
def ofListing? (text : String) : Option Node :=
  ofLines? ((Text.split '\n' text.toList).filter (· != []))

/-! ## Writing -/

mutual

/-- The listing of a tree. -/
def rows : Node → List Row
  | mk label children => ⟨label, children.length⟩ :: rowsAll children

def rowsAll : List Node → List Row
  | [] => []
  | n :: ns => n.rows ++ rowsAll ns

end

@[simp] theorem forest_cons (row : Row) (rest : List Row) :
    forest (row :: rest) = join row (forest rest) := rfl

mutual

theorem forest_rows_append (n : Node) (rest : List Row) :
    forest (n.rows ++ rest) = n :: forest rest := by
  match n with
  | mk label children => simp [rows, join, forest_rowsAll_append children]

theorem forest_rowsAll_append (ns : List Node) (rest : List Row) :
    forest (rowsAll ns ++ rest) = ns ++ forest rest := by
  match ns with
  | [] => simp [rowsAll]
  | n :: ns => simp [rowsAll, forest_rows_append n, forest_rowsAll_append ns]

end

/-- A listing reads back as the tree it was written from. -/
theorem ofRows?_rows (n : Node) : ofRows? n.rows = some n := by
  have h : forest n.rows = [n] := by simpa [forest] using forest_rows_append n []
  simp [ofRows?, h]

end Node

end FlowShape
