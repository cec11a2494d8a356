import Mathlib.Data.List.DropRight
import Mathlib.Data.List.TakeWhile
import FlowShape.Outline.Bound
import FlowShape.Proofs.Number.Rounding

/-!
# Spellings of whole numbers

A whole number is spelled in base ten, possibly with the suffix of long numbers, or in base 16, 8
or 2 after a prefix that names the base. Underscores may stand between digits, and letters may be
in either case. Below `2 ^ 53` each spelling is read as the number that it spells, also with a minus
sign in front of it and in parentheses.
-/

namespace FlowShape

namespace Number

/-- The digits of all bases in their order. -/
def digitChars : List Char := "0123456789abcdef".toList

/-- The letters that name a base after a zero. -/
def baseLetters : List (Char × Nat) := [('x', 16), ('o', 8), ('b', 2)]

/-- The bases in which numbers are spelled. -/
def bases : List Nat := 10 :: baseLetters.map (·.2)

/-- A character stands for a digit of a base. -/
def IsDigit (base : Nat) (c : Char) (d : Nat) : Prop :=
  d < base ∧ digitChars[d]? = some c.toLower

/-- Digits and the number that they write. -/
inductive Digits (base : Nat) : List Char → Nat → Prop
  | one {c : Char} {d : Nat} : IsDigit base c d → Digits base [c] d
  | next {cs : List Char} {n d : Nat} {c : Char} : Digits base cs n → IsDigit base c d →
      Digits base (cs ++ [c]) (base * n + d)
  | separated {cs : List Char} {n d : Nat} {c : Char} : Digits base cs n → IsDigit base c d →
      Digits base (cs ++ ['_', c]) (base * n + d)

/-- A literal spells a whole number. In base ten there is no zero in front of other digits. -/
inductive Spells : List Char → Nat → Prop
  | decimal {cs : List Char} {n : Nat} : Digits 10 cs n → (cs.head? = some '0' → cs = ['0']) →
      Spells cs n
  | long {cs : List Char} {n : Nat} : Digits 10 cs n → (cs.head? = some '0' → cs = ['0']) →
      Spells (cs ++ ['n']) n
  | inBase {x : Char} {base : Nat} {cs : List Char} {n : Nat} :
      (x.toLower, base) ∈ baseLetters → Digits base cs n → Spells ('0' :: x :: cs) n

/-! ## Digits -/

/-- The text of a literal without underscores and in lower case. -/
def plain (cs : List Char) : List Char := (cs.filter (· != '_')).map Char.toLower

theorem plain_append (cs ds : List Char) : plain (cs ++ ds) = plain cs ++ plain ds := by
  simp [plain]

section

variable {base n d : Nat} {c : Char} {cs : List Char}

theorem IsDigit.plain_eq (h : IsDigit base c d) : plain [c] = [c.toLower] := by
  have hc : c ≠ '_' := by
    rintro rfl
    have hmem : '_' ∈ digitChars := List.mem_of_getElem? h.2
    exact absurd hmem (by decide)
  simp [plain, hc]

theorem IsDigit.digit?_eq (h : IsDigit base c d) (hbase : base ∈ bases) :
    digit? base c.toLower = some d := by
  have hall : ∀ base ∈ bases, ∀ d < base, (digitChars[d]?).bind (digit? base) = some d := by
    decide
  have hd := hall base hbase d h.1
  rwa [h.2] at hd

theorem IsDigit.isDigit (h : IsDigit 10 c d) : c.toLower.isDigit := by
  have hall : ∀ d < 10, (digitChars[d]?).all Char.isDigit := by decide
  have hd := hall d h.1
  rwa [h.2] at hd

theorem plain_separator (c : Char) : plain ['_', c] = plain [c] := rfl

theorem ofDigits?_eq (base : Nat) {ds : List Char} (h : ds ≠ []) :
    ofDigits? base ds = ds.foldlM (fun n c => (digit? base c).map (base * n + ·)) 0 := by
  cases ds with
  | nil => contradiction
  | cons => rfl

/-- One more digit. -/
theorem ofDigits?_append {ds : List Char} (h : ofDigits? base ds = some n)
    (hc : digit? base c = some d) : ofDigits? base (ds ++ [c]) = some (base * n + d) := by
  have hds : ds ≠ [] := by
    rintro rfl
    cases h
  rw [ofDigits?_eq base hds] at h
  simp [ofDigits?_eq, List.foldlM_append, h, hc]

theorem Digits.ofDigits?_plain (h : Digits base cs n) (hbase : base ∈ bases) :
    ofDigits? base (plain cs) = some n := by
  induction h with
  | one hd => simp [hd.plain_eq, ofDigits?, hd.digit?_eq hbase]
  | next _ hd ih =>
    rw [plain_append, hd.plain_eq]
    exact ofDigits?_append ih (hd.digit?_eq hbase)
  | separated _ hd ih =>
    rw [plain_append, plain_separator, hd.plain_eq]
    exact ofDigits?_append ih (hd.digit?_eq hbase)

theorem Digits.isDigit_of_mem (h : Digits 10 cs n) : ∀ c ∈ plain cs, c.isDigit := by
  induction h with
  | one hd => simpa [hd.plain_eq] using hd.isDigit
  | next _ hd ih =>
    rw [plain_append, hd.plain_eq, List.forall_mem_append]
    exact ⟨ih, by simpa using hd.isDigit⟩
  | separated _ hd ih =>
    rw [plain_append, plain_separator, hd.plain_eq, List.forall_mem_append]
    exact ⟨ih, by simpa using hd.isDigit⟩

end

/-! ## Literals -/

section

variable {n : Nat} {cs ds : List Char}

theorem ofScientific_of_lt (h : n < 2 ^ 53) : ofScientific n 0 = finite n := by
  by_cases hn : n = 0
  · simp [ofScientific, hn]
  have hlength : (Nat.toDigits 10 n).length ≤ 16 :=
    (Nat.length_toDigits_le_iff (by omega) (by omega)).2 (by omega)
  have hpower : overPower 10 (-0) n 1 = (n, 1) := rfl
  unfold ofScientific
  rw [if_neg (by omega), if_neg (by omega), hpower]
  exact roundRatio_of_lt h

theorem decimal?_of_isDigit (hdigits : ∀ c ∈ ds, c.isDigit) (hn : ofDigits? 10 ds = some n)
    (h : n < 2 ^ 53) : decimal? ds = some (finite n) := by
  have htake : ds.takeWhile Char.isDigit = ds := List.takeWhile_eq_self_iff.2 hdigits
  have hdrop : ds.dropWhile Char.isDigit = [] := List.dropWhile_eq_nil_iff.2 hdigits
  simp [decimal?, htake, hdrop, hn, exponentPart?, ofScientific_of_lt h]

theorem wholeInBase?_of_lt {base : Nat} (hn : ofDigits? base ds = some n) (h : n < 2 ^ 53) :
    wholeInBase? base ds = some (finite n) := by
  have hlt : n < Nat.pow 2 63 := Nat.lt_trans h (by decide)
  simp [wholeInBase?, hn, Option.filter, hlt, roundRatio_of_lt h]

/-- Digits of base ten, with or without the suffix of long numbers, are a decimal literal. -/
theorem ofLiteral?_eq_decimal? {suffix : List Char} (hplain : plain cs = ds ++ suffix)
    (hdigits : ∀ c ∈ ds, c.isDigit) (hsuffix : suffix = [] ∨ suffix = ['n']) :
    ofLiteral? cs = decimal? ds := by
  -- no base is named, since the second character is a digit or the suffix
  have hsecond (c : Char) (rest : List Char) (h : ds ++ suffix = '0' :: c :: rest) :
      c.isDigit ∨ c = 'n' := by
    have hc : c ∈ ds ++ suffix := by simp [h]
    rcases List.mem_append.1 hc with hc | hc
    · exact .inl (hdigits c hc)
    · rcases hsuffix with rfl | rfl
      · cases hc
      · exact .inr (List.mem_singleton.1 hc)
  have hstrip : (ds ++ suffix).rdropWhile (· == 'n') = ds := by
    have hlast : ds.rdropWhile (· == 'n') = ds := by
      refine List.rdropWhile_eq_self_iff.2 fun hne hn => ?_
      have hdigit := hdigits _ (List.getLast_mem hne)
      rw [beq_iff_eq.1 hn] at hdigit
      exact absurd hdigit (by decide)
    rcases hsuffix with rfl | rfl
    · simpa using hlast
    · rw [List.rdropWhile_concat_pos _ _ _ (by decide), hlast]
  rw [plain] at hplain
  rw [ofLiteral?, hplain]
  split
  · next digits h => exact absurd (hsecond 'x' digits h) (by decide)
  · next digits h => exact absurd (hsecond 'b' digits h) (by decide)
  · next digits h => exact absurd (hsecond 'o' digits h) (by decide)
  · exact congrArg decimal? hstrip

theorem ofLiteral?_inBase {x : Char} {base : Nat} (hx : (x.toLower, base) ∈ baseLetters) :
    ofLiteral? ('0' :: x :: cs) = wholeInBase? base (plain cs) := by
  have hletter : x ≠ '_' := by
    rintro rfl
    simp [baseLetters] at hx
  have hplain : (('0' :: x :: cs).filter (· != '_')).map Char.toLower =
      '0' :: x.toLower :: plain cs := by
    simp [hletter, plain]
  rw [ofLiteral?, hplain]
  simp only [baseLetters, List.mem_cons, Prod.mk.injEq, List.not_mem_nil, or_false] at hx
  rcases hx with ⟨hx, rfl⟩ | ⟨hx, rfl⟩ | ⟨hx, rfl⟩ <;> exact hx ▸ rfl

/-- A number below `2 ^ 53` is read as it is spelled. -/
theorem Spells.ofLiteral?_eq (hspells : Spells cs n) (h : n < 2 ^ 53) :
    ofLiteral? cs = some (finite n) := by
  cases hspells with
  | decimal hd _ =>
    rw [ofLiteral?_eq_decimal? (List.append_nil _).symm hd.isDigit_of_mem (.inl rfl)]
    exact decimal?_of_isDigit hd.isDigit_of_mem (hd.ofDigits?_plain (by decide)) h
  | long hd _ =>
    rw [ofLiteral?_eq_decimal? (plain_append _ _) hd.isDigit_of_mem (.inr rfl)]
    exact decimal?_of_isDigit hd.isDigit_of_mem (hd.ofDigits?_plain (by decide)) h
  | inBase hx hd =>
    rw [ofLiteral?_inBase hx]
    have hbase := List.mem_cons_of_mem 10 (List.mem_map_of_mem (f := (·.2)) hx)
    exact wholeInBase?_of_lt (hd.ofDigits?_plain hbase) h

end

end Number

namespace Source

variable {src : Source} {n : Node} {z : Int}

/-- An expression spells a whole number: a literal, one with a minus sign, or one of these in
parentheses. -/
inductive Spells (src : Source) : Node → Int → Prop
  | literal {n : Node} {v : Nat} : n.kind = .number → Number.Spells (src.text n).toList v →
      Spells src n v
  | minus {n operator literal : Node} {v : Nat} : n.kind = .unaryExpression →
      n.child? .operator = some operator → src.text operator = "-" →
      n.child? .argument = some literal → literal.kind = .number →
      Number.Spells (src.text literal).toList v → Spells src n (-v)
  | inParentheses {n inner : Node} {z : Int} : n.kind = .parenthesizedExpression →
      n.firstPart? = some inner → Spells src inner z → Spells src n z

theorem numberToken_of_spells {v : Nat} (hspells : Number.Spells (src.text n).toList v)
    (h : v < 2 ^ 53) : src.numberToken n = .literal (.finite v) := by
  rw [numberToken, hspells.ofLiteral?_eq h]
  rfl

theorem Spells.numeric_eq (hspells : src.Spells n z) (h : z.natAbs < 2 ^ 53) :
    src.numeric n = .literal (.finite z) := by
  induction hspells with
  | literal hkind hspells =>
    rw [numeric]
    simp [hkind, numberToken_of_spells hspells (by omega)]
  | minus hkind hoperator hminus hargument hnumber hspells =>
    rw [numeric]
    simp [hkind, hoperator, hminus, hargument, hnumber,
      numberToken_of_spells hspells (by omega), Numeric.neg, Number.neg]
  | inParentheses hkind hinner _ ih =>
    rw [numeric]
    simp only [hkind]
    split <;> simp_all

/-- A whole number below `2 ^ 53` in magnitude is read as it is spelled. -/
theorem Spells.wholeLiteral?_eq (hspells : src.Spells n z) (h : z.natAbs < 2 ^ 53) :
    src.wholeLiteral? n = some z := by
  rw [wholeLiteral?, hspells.numeric_eq h]
  exact Number.toInt?_finite_intCast z

end Source

end FlowShape
