import FlowShape.Number.Shortest

/-!
# JSON values

Reports and options are JSON values. Whole numbers and decimals are kept apart, as a decimal is
written with a point or an exponent even when it is whole.
-/

namespace FlowShape

namespace Decimal

/-- A decimal with a point where its order of magnitude is between `10 ^ -5` and `10 ^ 15`, else
with an exponent. -/
def text (d : Decimal) : String :=
  let digits := Nat.toDigits 10 d.significand.natAbs
  let point : Int := digits.length + d.exponent
  let zeros (n : Int) : List Char := List.replicate n.toNat '0'
  let sign := if d.significand < 0 then ['-'] else []
  let body :=
    if 0 ≤ d.exponent ∧ point ≤ 16 then digits ++ zeros d.exponent ++ ['.', '0']
    else if 0 < point ∧ point ≤ 16 then digits.take point.toNat ++ '.' :: digits.drop point.toNat
    else if -5 < point ∧ point ≤ 0 then '0' :: '.' :: zeros (-point) ++ digits
    else
      let tail := digits.drop 1
      digits.take 1 ++ (if tail.isEmpty then [] else '.' :: tail) ++ 'e' ::
        (toString (point - 1)).toList
  String.ofList (sign ++ body)

end Decimal

inductive Json where
  | null
  | bool (value : Bool)
  | integer (value : Int)
  | decimal (value : Decimal)
  | string (value : String)
  | array (items : List Json)
  | object (fields : List (String × Json))
  deriving Inhabited

namespace Json

/-- How a character stands between double quotes. -/
def escape (c : Char) : List Char :=
  match c with
  | '"' => ['\\', '"']
  | '\\' => ['\\', '\\']
  | '\n' => ['\\', 'n']
  | '\r' => ['\\', 'r']
  | '\t' => ['\\', 't']
  | c =>
    if c.toNat = 8 then ['\\', 'b']
    else if c.toNat = 12 then ['\\', 'f']
    else if c.toNat < 16 then ['\\', 'u', '0', '0', '0'] ++ Nat.toDigits 16 c.toNat
    else if c.toNat < 32 then ['\\', 'u', '0', '0'] ++ Nat.toDigits 16 c.toNat
    else [c]

def quote (text : String) : String :=
  String.ofList ('"' :: text.toList.flatMap escape ++ ['"'])

/-- How the parts of arrays and objects are set out: on one line, or each on a line of its own
behind the given number of steps of two blanks. -/
abbrev Layout := Option Nat

namespace Layout

def deeper (layout : Layout) : Layout := layout.map (· + 1)

/-- What stands before a part, or before the closing bracket. -/
def lineBreak : Layout → String
  | none => ""
  | some depth => String.ofList ('\n' :: List.replicate (2 * depth) ' ')

def colon : Layout → String
  | none => ":"
  | some _ => ": "

end Layout

mutual

/-- The text of a value. -/
def render (layout : Layout) : Json → String
  | null => "null"
  | bool value => if value then "true" else "false"
  | integer value => toString value
  | decimal value => value.text
  | string value => quote value
  | array [] => "[]"
  | array (item :: items) =>
    "[" ++ renderItems layout.deeper (item :: items) ++ layout.lineBreak ++ "]"
  | object [] => "\x7b\x7d"
  | object (field :: fields) =>
    "\x7b" ++ renderFields layout.deeper (field :: fields) ++ layout.lineBreak ++ "\x7d"

def renderItems (layout : Layout) : List Json → String
  | [] => ""
  | [item] => layout.lineBreak ++ item.render layout
  | item :: items => layout.lineBreak ++ item.render layout ++ "," ++ renderItems layout items

def renderFields (layout : Layout) : List (String × Json) → String
  | [] => ""
  | [(name, value)] => layout.lineBreak ++ quote name ++ layout.colon ++ value.render layout
  | (name, value) :: fields =>
    layout.lineBreak ++ quote name ++ layout.colon ++ value.render layout ++ "," ++
      renderFields layout fields

end

def compact (json : Json) : String := json.render none
def pretty (json : Json) : String := json.render (some 0)

/-! ## Building -/

def nat (n : Nat) : Json := integer n

def strings (texts : List String) : Json := array (texts.map string)

/-- A value that may be absent, written as `null` then. -/
def orNull {α : Type} (write : α → Json) : Option α → Json
  | some a => write a
  | none => null

/-- A field that is left out when its value is absent. -/
def optional {α : Type} (name : String) (write : α → Json) : Option α → List (String × Json)
  | some a => [(name, write a)]
  | none => []

end Json

end FlowShape
