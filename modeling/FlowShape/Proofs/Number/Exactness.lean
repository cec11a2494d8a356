import FlowShape.Proofs.Number.Spelling
import FlowShape.Proofs.Tree.Builder

/-!
# Exact reading of whole numbers

A number token counts by itself, with a minus sign in front of it, and in any number of parentheses
around either. Below `2 ^ 53` the number that it spells is read exactly. In base 16, 8 and 2 there
is also an upper end: a value that does not fit into 64 bits with a sign is not read at all, so it
is never read wrongly.
-/

namespace FlowShape

namespace Number

/-- A literal spells a whole number in base 16, 8 or 2. -/
def SpellsInBase (cs : List Char) (n : Nat) : Prop :=
  ∃ x base ds, cs = '0' :: x :: ds ∧ (x.toLower, base) ∈ baseLetters ∧ Digits base ds n

theorem wholeInBase?_of_le {base n : Nat} {ds : List Char} (hn : ofDigits? base ds = some n)
    (h : 2 ^ 63 ≤ n) : wholeInBase? base ds = none := by
  have hlarge : ¬n < Nat.pow 2 63 := Nat.not_lt.2 h
  simp [wholeInBase?, hn, Option.filter, hlarge]

/-- A value that does not fit into 64 bits with a sign is not read. -/
theorem SpellsInBase.ofLiteral?_eq_none {cs : List Char} {n : Nat} (hspells : SpellsInBase cs n)
    (h : 2 ^ 63 ≤ n) : ofLiteral? cs = none := by
  obtain ⟨x, base, ds, rfl, hx, hdigits⟩ := hspells
  have hbase : base ∈ bases := List.mem_cons_of_mem 10 (List.mem_map_of_mem (f := (·.2)) hx)
  rw [ofLiteral?_inBase hx]
  exact wholeInBase?_of_le (hdigits.ofDigits?_plain hbase) h

end Number

namespace Source

variable {src : Source} {token n : Node} {negative : Bool}

/-- An expression is a number token, one with a minus sign in front of it, or one of these in
parentheses. -/
inductive Signed (src : Source) (token : Node) : Bool → Node → Prop
  | plain : token.kind = .number → Signed src token false token
  | minus {n operator : Node} : token.kind = .number → n.kind = .unaryExpression →
      n.child? .operator = some operator → src.text operator = "-" →
      n.child? .argument = some token → Signed src token true n
  | inParentheses {n inner : Node} {negative : Bool} : n.kind = .parenthesizedExpression →
      n.firstPart? = some inner → Signed src token negative inner → Signed src token negative n

/-- Parentheses change nothing, and a minus sign changes the sign. -/
theorem Signed.numeric_eq (h : src.Signed token negative n) :
    src.numeric n =
      if negative then (src.numberToken token).neg else src.numberToken token := by
  induction h with
  | plain hnumber =>
    rw [numeric]
    simp [hnumber]
  | minus hnumber hkind hoperator hminus hargument =>
    rw [numeric]
    simp [hkind, hoperator, hminus, hargument, hnumber]
  | inParentheses hkind hinner _ ih =>
    rw [numeric]
    simp only [hkind]
    split <;> simp_all

/-- Below `2 ^ 53` a whole number is read as it is spelled, in every base, with its sign and in any
number of parentheses; in base 16, 8 and 2 it is unknown from `2 ^ 63` on. -/
theorem whole_literals_are_read_exactly (src : Source) {token n : Node} {negative : Bool}
    (h : src.Signed token negative n) (v : Nat) :
    (Number.Spells (src.text token).toList v → v < 2 ^ 53 →
      src.numeric n = .literal (.finite ((if negative then -v else v : Int) : Rat))) ∧
    (Number.SpellsInBase (src.text token).toList v → 2 ^ 63 ≤ v → src.numeric n = .dynamic) := by
  constructor
  · intro hspells hlt
    have htoken := numberToken_of_spells hspells hlt
    cases negative <;> simp [h.numeric_eq, htoken, Numeric.neg, Number.neg]
  · intro hspells hle
    have htoken : src.numberToken token = .dynamic := by
      rw [numberToken, hspells.ofLiteral?_eq_none hle]
      rfl
    cases negative <;> simp [h.numeric_eq, htoken, Numeric.neg]

end Source

namespace Sample

def hexSource : Source := .ofString "sample.ts" "((-0X0_fF))"
def hugeSource : Source := .ofString "sample.ts" "0x8000000000000000"

def hexToken : Node := role .argument .number 3 9 []

def hexNumber : Node :=
  part .parenthesizedExpression 0 11 [
    token "(" 0,
    part .parenthesizedExpression 1 10 [
      token "(" 1, part .unaryExpression 2 9 [roleToken .operator "-" 2, hexToken], token ")" 9],
    token ")" 10]

/-- The number `2 ^ 63`. -/
def hugeToken : Node := part .number 0 18 []

end Sample

namespace Source

/-- `((-0X0_fF))` is -255, and `0x8000000000000000` is unknown. -/
theorem whole_literals_are_read_exactly_hex :
    Sample.hexSource.Signed Sample.hexToken true Sample.hexNumber ∧
      Number.Spells (Sample.hexSource.text Sample.hexToken).toList 255 ∧
      Sample.hexSource.numeric Sample.hexNumber = .literal (.finite (-255)) ∧
      Sample.hugeSource.Signed Sample.hugeToken false Sample.hugeToken ∧
      Number.SpellsInBase (Sample.hugeSource.text Sample.hugeToken).toList (2 ^ 63) ∧
      Sample.hugeSource.numeric Sample.hugeToken = .dynamic := by
  obtain ⟨hminus, hhex⟩ :
      Sample.hexSource.text (Sample.roleToken .operator "-" 2) = "-" ∧
        (Sample.hexSource.text Sample.hexToken).toList = ['0', 'X', '0', '_', 'f', 'F'] := by
    decide +kernel
  have hhuge : (Sample.hugeSource.text Sample.hugeToken).toList =
      ['0', 'x', '8', '0', '0', '0', '0', '0', '0', '0', '0', '0', '0', '0', '0', '0', '0', '0'] := by
    decide +kernel
  have hzero : Number.IsDigit 16 '0' 0 := ⟨by decide, by decide⟩
  have hff : Number.Digits 16 ['0', '_', 'f', 'F'] 255 :=
    ((Number.Digits.one hzero).separated (c := 'f') (d := 15) ⟨by decide, by decide⟩).next
      (c := 'F') (d := 15) ⟨by decide, by decide⟩
  have height : Number.Digits 16 ['8'] 8 := .one ⟨by decide, by decide⟩
  have hdigits : Number.Digits 16 (['8'] ++ List.replicate 15 '0') (2 ^ 63) :=
    ((((((((((((((height.next hzero).next hzero).next hzero).next hzero).next hzero).next
      hzero).next hzero).next hzero).next hzero).next hzero).next hzero).next hzero).next
        hzero).next hzero).next hzero
  have hsigned : Sample.hexSource.Signed Sample.hexToken true Sample.hexNumber :=
    .inParentheses rfl rfl (.inParentheses rfl rfl (.minus rfl rfl rfl hminus rfl))
  have hplain : Sample.hugeSource.Signed Sample.hugeToken false Sample.hugeToken := .plain rfl
  have hspells : Number.Spells (Sample.hexSource.text Sample.hexToken).toList 255 := by
    rw [hhex]
    exact .inBase (by decide : ('X'.toLower, 16) ∈ Number.baseLetters) hff
  have hinBase : Number.SpellsInBase (Sample.hugeSource.text Sample.hugeToken).toList (2 ^ 63) :=
    ⟨'x', 16, _, hhuge, by decide, hdigits⟩
  refine ⟨hsigned, hspells, ?_, hplain, hinBase, ?_⟩
  · simpa using (whole_literals_are_read_exactly _ hsigned 255).1 hspells (by decide)
  · exact (whole_literals_are_read_exactly _ hplain _).2 hinBase (by decide)

end Source

end FlowShape
