import Mathlib.Algebra.GroupWithZero.Nat
import Mathlib.Data.Rat.Lemmas
import FlowShape.Number.Binary64

/-!
# Rounding of whole numbers

Whole numbers below `2 ^ 53` are left alone. From there up to `2 ^ 54` only the even ones are
numbers: an odd one goes to the neighbour that is a multiple of four. `nearest` tells the result as
a whole number.
-/

namespace FlowShape.Number

/-- The whole number that a whole number below `2 ^ 54` is rounded to. -/
def nearest (z : Int) : Int :=
  if z.natAbs < 2 ^ 53 ∨ z % 2 = 0 then z
  else if z % 4 = 1 then z - 1
  else z + 1

theorem nearest_of_lt {z : Int} (h : z.natAbs < 2 ^ 53) : nearest z = z := if_pos (.inl h)

theorem nearest_neg (z : Int) : nearest (-z) = -nearest z := by
  unfold nearest
  split_ifs <;> omega

/-! ## Ratios -/

theorem overPower_natCast (base k n d : Nat) :
    overPower base (k : Int) n d = (n, d * base ^ k) := by
  simp [overPower]

theorem overPower_neg_natCast (base k n d : Nat) :
    overPower base (-(k : Int)) n d = (n * base ^ k, d) := by
  cases k with
  | zero => simp [overPower]
  | succ k =>
    have hneg : ¬0 ≤ -((k + 1 : Nat) : Int) := by omega
    rw [overPower, if_neg hneg]
    simp

theorem divHalfEven_one (n : Nat) : divHalfEven n 1 = n := by
  simp [divHalfEven, Nat.mod_one]

theorem divHalfEven_two {n : Nat} (h : 2 ^ 53 ≤ n) :
    ((divHalfEven n 2 * 2 : Nat) : Int) = nearest n := by
  unfold divHalfEven nearest
  dsimp only
  split_ifs <;> omega

theorem exponent_one {n : Nat} (h : n ≠ 0) : exponent n 1 = n.log2 := by
  have hlog : Nat.log2 1 = 0 := by decide
  have hle : 2 ^ n.log2 ≤ n := Nat.log2_self_le h
  rw [exponent, hlog]
  simp [overPower_natCast, hle]

/-- The steps of rounding, for results that are not too large. -/
theorem roundRatio_eq_finite {n a b p q : Nat} {unit : Int} (hn : n ≠ 0)
    (hunit : max (n.log2 - 52 : Int) (-1074) = unit) (hab : overPower 2 unit n 1 = (a, b))
    (hpq : overPower 2 (-unit) (divHalfEven a b) 1 = (p, q)) (hp : p ≤ 2 ^ 54) :
    roundRatio n 1 = finite (mkRat p q) := by
  have hlt (e : Nat) (he : 54 < e) : p < Nat.pow 2 e :=
    Nat.lt_of_le_of_lt hp (Nat.pow_lt_pow_right (by simp) he)
  rw [roundRatio, if_neg hn, exponent_one hn, hunit]
  simp only [hab, hpq]
  split
  · rfl
  · next hlarge => exact absurd (hlt _ (by simp)) hlarge

theorem roundRatio_of_lt {n : Nat} (h : n < 2 ^ 53) : roundRatio n 1 = finite n := by
  by_cases hn : n = 0
  · simp [roundRatio, hn]
  have hlog : n.log2 < 53 := (Nat.log2_lt hn).2 h
  obtain ⟨k, hk⟩ : ∃ k : Nat, n.log2 + k = 52 := ⟨52 - n.log2, by omega⟩
  have hle : n * 2 ^ k ≤ 2 ^ 54 := by
    calc n * 2 ^ k ≤ 2 ^ (n.log2 + 1) * 2 ^ k := Nat.mul_le_mul_right _ Nat.lt_log2_self.le
      _ = 2 ^ (n.log2 + 1 + k) := (pow_add 2 _ _).symm
      _ ≤ 2 ^ 54 := Nat.pow_le_pow_right (by omega) (by omega)
  have hab : overPower 2 (-(k : Int)) n 1 = (n * 2 ^ k, 1) := overPower_neg_natCast 2 k n 1
  have hpq : overPower 2 (- -(k : Int)) (divHalfEven (n * 2 ^ k) 1) 1 = (n * 2 ^ k, 2 ^ k) := by
    rw [neg_neg, divHalfEven_one, overPower_natCast, one_mul]
  have hcancel : mkRat ((n : Int) * (2 ^ k : Nat)) (1 * 2 ^ k) = mkRat n 1 :=
    Rat.mkRat_mul_right (Nat.two_pow_pos k).ne'
  rw [one_mul, Rat.mkRat_one, ← Nat.cast_mul] at hcancel
  rw [roundRatio_eq_finite hn (by omega) hab hpq hle, hcancel]
  rfl

theorem roundRatio_of_le {n : Nat} (h : 2 ^ 53 ≤ n) (hlt : n < 2 ^ 54) :
    roundRatio n 1 = finite (nearest n) := by
  have hn : n ≠ 0 := by omega
  have hlog : n.log2 = 53 := (Nat.log2_eq_iff hn).2 ⟨h, hlt⟩
  have hnearest := divHalfEven_two h
  have hle : nearest n ≤ 2 ^ 54 := by
    unfold nearest
    split_ifs <;> omega
  have hab : overPower 2 ((1 : Nat) : Int) n 1 = (n, 2) := by
    rw [overPower_natCast, pow_one, one_mul]
  have hpq : overPower 2 (-((1 : Nat) : Int)) (divHalfEven n 2) 1 = (divHalfEven n 2 * 2, 1) := by
    rw [overPower_neg_natCast, pow_one]
  rw [roundRatio_eq_finite hn (by omega) hab hpq (by omega), hnearest, Rat.mkRat_one]

/-! ## Whole numbers -/

theorem roundRatio_one {n : Nat} (h : n < 2 ^ 54) : roundRatio n 1 = finite (nearest n) := by
  rcases Nat.lt_or_ge n (2 ^ 53) with hlt | hge
  · rw [roundRatio_of_lt hlt, nearest_of_lt (by omega)]
    rfl
  · exact roundRatio_of_le hge h

/-- A whole number is rounded to the whole number nearest to it. -/
theorem round_intCast {z : Int} (h : z.natAbs < 2 ^ 54) : round z = finite (nearest z) := by
  rw [round]
  simp only [Rat.num_intCast, Rat.den_intCast, roundRatio_one h]
  split
  · next hneg =>
    have hz : z = -(z.natAbs : Int) := by omega
    rw [neg]
    conv_rhs => rw [hz, nearest_neg]
    simp
  · next hpos =>
    have hz : (z.natAbs : Int) = z := by omega
    rw [hz]

theorem toInt?_finite_intCast (z : Int) : toInt? (finite z) = some z := by
  simp [toInt?]

end FlowShape.Number
