import FlowShape.Number.Binary64

/-!
# Numeric literals

Reads the spellings of numeric literals: decimal with an optional fraction and exponent, whole
numbers in base 16, 8 and 2, underscores between digits, and the suffix `n` of long decimals.
-/

namespace FlowShape.Number

/-- The value of a digit in bases up to 16, given in lower case. -/
def digit? (base : Nat) (c : Char) : Option Nat :=
  let value :=
    if '0' ≤ c ∧ c ≤ '9' then some (c.toNat - '0'.toNat)
    else if 'a' ≤ c ∧ c ≤ 'f' then some (c.toNat - 'a'.toNat + 10)
    else none
  value.filter (· < base)

/-- The number written by a list of digits, which must not be empty. -/
def ofDigits? (base : Nat) : List Char → Option Nat
  | [] => none
  | ds => ds.foldlM (fun n c => (digit? base c).map (base * n + ·)) 0

/-- A whole number in another base than ten; only values below `2 ^ 63` are read. -/
def wholeInBase? (base : Nat) (digits : List Char) : Option Number :=
  ((ofDigits? base digits).filter (· < Nat.pow 2 63)).map fun n => roundRatio n 1

/-- The exponent part of a decimal literal: nothing, or `e`, an optional sign and digits. -/
def exponentPart? : List Char → Option Int
  | [] => some 0
  | 'e' :: '-' :: ds => (ofDigits? 10 ds).map fun n => -(n : Int)
  | 'e' :: '+' :: ds => (ofDigits? 10 ds).map fun n => (n : Int)
  | 'e' :: ds => (ofDigits? 10 ds).map fun n => (n : Int)
  | _ => none

def decimal? (text : List Char) : Option Number := do
  let whole := text.takeWhile Char.isDigit
  let rest := text.dropWhile Char.isDigit
  let (fraction, rest) := match rest with
    | '.' :: tail => (tail.takeWhile Char.isDigit, tail.dropWhile Char.isDigit)
    | _ => ([], rest)
  let significand ← ofDigits? 10 (whole ++ fraction)
  let exponent ← exponentPart? rest
  return ofScientific significand (exponent - fraction.length)

/-- The number that a numeric literal spells. -/
def ofLiteral? (text : List Char) : Option Number :=
  match (text.filter (· != '_')).map Char.toLower with
  | '0' :: 'x' :: digits => wholeInBase? 16 digits
  | '0' :: 'b' :: digits => wholeInBase? 2 digits
  | '0' :: 'o' :: digits => wholeInBase? 8 digits
  | cs => decimal? (cs.reverse.dropWhile (· == 'n')).reverse

end FlowShape.Number
