/-!
# Binary floating-point numbers

A number is the exact value of a binary floating-point number with a significand of 53 bits and
exponents down to -1074, or an infinity. Arithmetic is exact arithmetic followed by `round`. The
sign of zero is not kept.
-/

namespace FlowShape

inductive Number where
  | finite (value : Rat)
  | infinite (negative : Bool)
  deriving DecidableEq

namespace Number

/-- The quotient `n / d` rounded to a whole number, a half to the even one. -/
def divHalfEven (n d : Nat) : Nat :=
  let q := n / d
  let twice := 2 * (n % d)
  if twice < d ∨ (twice = d ∧ q % 2 = 0) then q else q + 1

/-- The quotient of `n / d` and `base ^ e`, as a numerator and a denominator. -/
def overPower (base : Nat) (e : Int) (n d : Nat) : Nat × Nat :=
  if 0 ≤ e then (n, d * Nat.pow base e.toNat) else (n * Nat.pow base (-e).toNat, d)

/-- The exponent `e` with `2 ^ e ≤ n / d < 2 ^ (e + 1)`, for positive `n` and `d`. -/
def exponent (n d : Nat) : Int :=
  let e : Int := (n.log2 : Int) - (d.log2 : Int)
  let (a, b) := overPower 2 e n d
  if b ≤ a then e else e - 1

/-- `n / d` rounded to the nearest number, a tie to the one with the even significand. -/
def roundRatio (n d : Nat) : Number :=
  if n = 0 then finite 0
  else
    let unit := max (exponent n d - 52) (-1074)
    let (a, b) := overPower 2 unit n d
    let (p, q) := overPower 2 (-unit) (divHalfEven a b) 1
    if p < Nat.pow 2 1024 then finite (mkRat p q) else infinite false

def neg : Number → Number
  | finite value => finite (-value)
  | infinite negative => infinite (!negative)

/-- The number nearest to an exact value. -/
def round (value : Rat) : Number :=
  let magnitude := roundRatio value.num.natAbs value.den
  if value.num < 0 then magnitude.neg else magnitude

/-- The whole number that a number is. -/
def toInt? : Number → Option Int
  | finite value => if value.den = 1 then some value.num else none
  | infinite _ => none

/-- The number `m · 10 ^ e`. Exponents so large or small that the result is an infinity or zero are
not worked out. -/
def ofScientific (m : Nat) (e : Int) : Number :=
  let order := (Nat.toDigits 10 m).length + e
  if m = 0 ∨ order < -330 then finite 0
  else if 310 < order then infinite false
  else
    let (n, d) := overPower 10 (-e) m 1
    roundRatio n d

end Number

end FlowShape
