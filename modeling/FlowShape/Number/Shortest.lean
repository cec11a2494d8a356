import FlowShape.Number.Binary64

/-!
# Shortest decimals

The decimal with the fewest digits that reads back as a given number.
-/

namespace FlowShape

/-- The number `significand · 10 ^ exponent`. -/
structure Decimal where
  significand : Int
  exponent : Int
  deriving DecidableEq

namespace Number

/-- The exponent `k` with `10 ^ k ≤ n / d < 10 ^ (k + 1)`, for positive `n` and `d`. -/
def decimalExponent (n d : Nat) : Int :=
  let k : Int := (Nat.toDigits 10 n).length - (Nat.toDigits 10 d).length
  let (a, b) := overPower 10 k n d
  if b ≤ a then k else k - 1

/-- The multiples of `10 ^ e` next to `n / d` that read back as `n / d`, the nearer one first. -/
def neighbours (n d : Nat) (e : Int) : List Decimal :=
  let (num, den) := overPower 10 e n d
  let low := num / den
  let twice := 2 * (num % den)
  let nearer := if twice < den ∨ (twice = den ∧ low % 2 = 0) then [low, low + 1] else [low + 1, low]
  (nearer.filter fun m => ofScientific m e = roundRatio n d).map fun (m : Nat) => ⟨m, e⟩

/-- The decimal of at most 17 digits that reads back as the positive number `n / d`, with as few
digits as possible and among those the nearest. -/
def shortestRatio (n d : Nat) : Decimal :=
  let top := decimalExponent n d + 1
  ((List.range 18).findSome? fun (i : Nat) => (neighbours n d (top - i)).head?).getD ⟨n, 0⟩

/-- The shortest decimal of a value that `round` leaves alone. -/
def shortest (value : Rat) : Decimal :=
  if value.num = 0 then ⟨0, 0⟩
  else
    let magnitude := shortestRatio value.num.natAbs value.den
    if value.num < 0 then { magnitude with significand := -magnitude.significand } else magnitude

end Number

end FlowShape
