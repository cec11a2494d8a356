/-!
# Pieces of text

Search for a piece of text, and the parts of a text around a piece.
-/

namespace FlowShape.Text

/-- Whether `piece` stands somewhere in the text. -/
def occurs (piece : List Char) : List Char → Bool
  | [] => piece.isEmpty
  | c :: cs => piece.isPrefixOf (c :: cs) || occurs piece cs

/-- The pieces of a text between occurrences of a character. -/
def split (c : Char) : List Char → List (List Char)
  | [] => [[]]
  | d :: ds =>
    if d = c then [] :: split c ds
    else match split c ds with
      | [] => [[d]]
      | piece :: pieces => (d :: piece) :: pieces

/-- A text without a carriage return at its end. -/
def dropReturn (cs : List Char) : List Char :=
  if cs.getLast? = some '\r' then cs.dropLast else cs

/-- The lines of a text. A line ends with a line feed, which may follow a carriage return; neither
is part of the line. -/
def lines (text : String) : List String :=
  let pieces := split '\n' text.toList
  let rest := (pieces.getLast?.filter (· != [])).toList
  (pieces.dropLast.map dropReturn ++ rest).map String.ofList

/-- What follows `head` and a full stop, if the text starts with them. -/
def memberOf? (head text : String) : Option String :=
  let cut := head.toList ++ ['.']
  if cut.isPrefixOf text.toList then some (String.ofList (text.toList.drop cut.length)) else none

/-- What follows the last full stop, or the whole text if it has none. -/
def lastSegment (text : String) : String :=
  String.ofList (text.toList.reverse.takeWhile (· != '.')).reverse

/-- A text between two single or two double quotes, without them. -/
def unquote (cs : List Char) : List Char :=
  match cs with
  | quote :: rest =>
    if (quote = '"' ∨ quote = '\'') ∧ rest.getLast? = some quote then rest.dropLast else cs
  | [] => []

end FlowShape.Text
