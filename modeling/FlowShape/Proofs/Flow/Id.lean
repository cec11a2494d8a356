import FlowShape.Flow.Id

/-!
# Numbers of identifiers

The number of an identifier stands after its last underscore, as no number holds one. So the stem
and the number can be read off from the text, and one identifier can be turned into a later one.
-/

namespace FlowShape.Id

/-- What stands after the last underscore. -/
def suffix (i : Id) : List Char := (i.text.toList.reverse.takeWhile (· != '_')).reverse

/-- What stands before the last underscore. -/
def stem (i : Id) : String :=
  String.ofList (i.text.toList.reverse.dropWhile (· != '_')).tail.reverse

/-- The number at the end of an identifier, or zero if it does not end in a number. -/
def number (i : Id) : Nat :=
  if i = numbered i.stem (Nat.ofDigitChars 10 i.suffix 0) then Nat.ofDigitChars 10 i.suffix 0 else 0

theorem reverse_toList_numbered (stem : String) (n : Nat) :
    (numbered stem n).text.toList.reverse =
      (Nat.toDigits 10 n).reverse ++ '_' :: stem.toList.reverse := by
  simp [numbered, Nat.toString_eq_repr, Nat.toList_repr]

theorem digit_ne_underscore {n : Nat} : ∀ c ∈ (Nat.toDigits 10 n).reverse, c != '_' := by
  intro c hc
  rw [bne_iff_ne]
  rintro rfl
  exact Nat.underscore_not_in_toDigits (List.mem_reverse.1 hc)

@[simp] theorem stem_numbered (stem : String) (n : Nat) : (numbered stem n).stem = stem := by
  rw [Id.stem, reverse_toList_numbered, List.dropWhile_append_of_pos digit_ne_underscore]
  simp

@[simp] theorem number_numbered (stem : String) (n : Nat) : (numbered stem n).number = n := by
  have hsuffix : (numbered stem n).suffix = Nat.toDigits 10 n := by
    rw [suffix, reverse_toList_numbered, List.takeWhile_append_of_pos digit_ne_underscore]
    simp
  rw [number, hsuffix, Nat.ofDigitChars_ten_toDigits, stem_numbered, if_pos rfl]

@[simp] theorem number_next (used : Nat) (stem : String) : (next used stem).number = used + 1 :=
  number_numbered stem (used + 1)

/-- The identifier `k` numbers later. -/
def raise (k : Nat) (i : Id) : Id := if k = 0 then i else numbered i.stem (i.number + k)

theorem raise_numbered (k : Nat) (stem : String) (n : Nat) :
    (numbered stem n).raise k = numbered stem (n + k) := by
  rw [raise, stem_numbered, number_numbered]
  split
  · simp_all
  · rfl

end FlowShape.Id
