import Mathlib.Data.List.Infix
import FlowShape.Proofs.Outline.Elements
import FlowShape.Proofs.Reading.Loops

/-!
# Headers of loops over collections

Whether a loop goes over elements or over keys is told by a search for ` of ` in its header. The
header is cut at its operator here, to say when the search finds the operator: the word `of` is
found if it has a blank on either side, and both words are overlooked if ` of ` stands elsewhere in
the header, in a string for instance.
-/

namespace FlowShape

/-! ## Pieces of text -/

namespace Text

variable {cs piece rest rest' : List Char} {start middle stop : Nat}

theorem occurs_iff : occurs piece cs ↔ piece <:+: cs := by
  induction cs with
  | nil => simp [occurs]
  | cons c cs ih =>
    rw [occurs, Bool.or_eq_true, List.isPrefixOf_iff_prefix, ih, List.infix_cons_iff]

/-- What is dropped can be taken instead. -/
theorem takeBytes_of_dropBytes {n : Nat} (h : dropBytes n cs = some rest) :
    ∃ piece, takeBytes n cs = some piece ∧ cs = piece ++ rest := by
  fun_induction dropBytes n cs with
  | case1 cs =>
    cases h
    exact ⟨[], by simp [takeBytes], rfl⟩
  | case2 => cases h
  | case3 n c cs hsize ih =>
    obtain ⟨piece, hpiece, rfl⟩ := ih h
    exact ⟨c :: piece, by simp [takeBytes, hsize, hpiece], rfl⟩
  | case4 => cases h

theorem dropBytes_add {n k : Nat} (h : dropBytes n cs = some rest) :
    dropBytes (n + k) cs = dropBytes k rest := by
  fun_induction dropBytes n cs with
  | case1 cs =>
    cases h
    rw [Nat.zero_add]
  | case2 => cases h
  | case3 n c cs hsize ih =>
    have hsucc : n.succ + k = n + k + 1 := by omega
    have hrest : n + k + 1 - c.utf8Size = n + 1 - c.utf8Size + k := by omega
    rw [hsucc, dropBytes, if_pos (by omega), hrest, ih h]
  | case4 => cases h

/-- Between two offsets stands the piece that leads from one rest of the text to the other. -/
theorem eq_slice_append (hle : start ≤ stop) (hstart : dropBytes start cs = some rest)
    (hstop : dropBytes stop cs = some rest') : rest = slice start stop cs ++ rest' := by
  have hdrop : dropBytes (stop - start) rest = some rest' := by
    rw [← dropBytes_add hstart, Nat.add_sub_cancel' hle, hstop]
  obtain ⟨piece, hpiece, happend⟩ := takeBytes_of_dropBytes hdrop
  rw [slice, if_pos hle, hstart, Option.bind_some, hpiece]
  exact happend

theorem slice_append_slice (hstart : start ≤ middle) (hstop : middle ≤ stop)
    (h : (dropBytes start cs).isSome) (hmiddle : (dropBytes middle cs).isSome)
    (h' : (dropBytes stop cs).isSome) :
    slice start stop cs = slice start middle cs ++ slice middle stop cs := by
  obtain ⟨rest₁, h₁⟩ := Option.isSome_iff_exists.1 h
  obtain ⟨rest₂, h₂⟩ := Option.isSome_iff_exists.1 hmiddle
  obtain ⟨rest₃, h₃⟩ := Option.isSome_iff_exists.1 h'
  have hall := eq_slice_append (hstart.trans hstop) h₁ h₃
  have hfirst := eq_slice_append hstart h₁ h₂
  have hsecond := eq_slice_append hstop h₂ h₃
  rw [hfirst, hsecond, ← List.append_assoc] at hall
  exact (List.append_cancel_right hall).symm

/-- In a text with one of the operators in the middle, ` of ` stands before the operator, behind it,
or is the operator with a blank on either side. -/
theorem infix_around {word before after : List Char}
    (hword : word = "of".toList ∨ word = "in".toList) :
    " of ".toList <:+: before ++ word ++ after ↔
      " of ".toList <:+: before ∨ " of ".toList <:+: after ∨
        word = "of".toList ∧ [' '] <:+ before ∧ [' '] <+: after := by
  have hof : "of".toList = ['o', 'f'] := rfl
  have hin : "in".toList = ['i', 'n'] := rfl
  have hpiece : " of ".toList = [' ', 'o', 'f', ' '] := rfl
  rw [hof, hin] at hword
  rw [hof, hpiece]
  constructor
  · intro h
    rw [List.append_assoc, List.infix_append_iff] at h
    rcases h with h | h | ⟨l₁, l₂, hsplit, hsuffix, hprefix⟩
    · exact .inl h
    · refine .inr (.inl ?_)
      rcases hword with rfl | rfl <;> simpa [List.infix_cons_iff] using h
    · -- the piece starts before the word and ends there too, or else behind the word
      simp only [List.cons_eq_append_iff, List.nil_eq, List.append_eq_nil_iff] at hsplit
      rcases hsplit with ⟨rfl, rfl⟩ | ⟨_, rfl, ⟨rfl, rfl⟩ | ⟨_, rfl, ⟨rfl, rfl⟩ |
        ⟨_, rfl, ⟨rfl, rfl⟩ | ⟨_, rfl, rfl, rfl⟩⟩⟩⟩
      · rcases hword with rfl | rfl <;> simp at hprefix
      · rcases hword with rfl | rfl <;> simp at hprefix
        exact .inr (.inr ⟨rfl, hsuffix, hprefix⟩)
      · rcases hword with rfl | rfl <;> simp at hprefix
      · rcases hword with rfl | rfl <;> simp at hprefix
      · exact .inl hsuffix.isInfix
  · rintro (h | h | ⟨rfl, hbefore, hafter⟩)
    · rw [List.append_assoc]
      exact List.infix_append_of_infix_left h
    · exact List.infix_append_of_infix_right h
    · rw [List.append_assoc, List.infix_append_iff]
      exact .inr (.inr ⟨[' '], ['o', 'f', ' '], rfl, hbefore, by simpa using hafter⟩)

end Text

/-! ## Headers -/

namespace Source

variable {src : Source} {statement operator body : Node}

/-- The operator of a loop header stands between the start of the statement and its body, and no
character is cut there. -/
structure CutsHeader (src : Source) (statement operator body : Node) : Prop where
  start_le : statement.start ≤ operator.start
  le_stop : operator.start ≤ operator.stop
  stop_le : operator.stop ≤ body.start
  offsets : ∀ offset ∈ [statement.start, operator.start, operator.stop, body.start],
    (Text.dropBytes offset src.chars).isSome

theorem CutsHeader.textUpTo_eq (h : src.CutsHeader statement operator body) :
    (src.textUpTo statement body).toList =
      (src.slice statement.start operator.start).toList ++ (src.text operator).toList ++
        (src.slice operator.stop body.start).toList := by
  have hoffsets := h.offsets
  simp only [List.forall_mem_cons] at hoffsets
  obtain ⟨hstart, hoperator, hstop, hbody, -⟩ := hoffsets
  simp only [textUpTo, text, slice, String.toList_ofList]
  rw [Text.slice_append_slice (h.start_le.trans h.le_stop) h.stop_le hstart hstop hbody,
    Text.slice_append_slice h.start_le h.le_stop hstart hoperator hstop]

end Source

namespace Repetition

theorem overHeader_kind_eq_forOf_iff (src : Source) (statement body : Node) :
    (overHeader src statement body).kind = .forOf ↔
      " of ".toList <:+: (src.textUpTo statement body).toList := by
  rw [← Text.occurs_iff, overHeader]
  split
  · next h => exact iff_of_true rfl h
  · next h => exact iff_of_false LoopKind.noConfusion h

theorem overHeader_kind_eq_forIn_iff (src : Source) (statement body : Node) :
    (overHeader src statement body).kind = .forIn ↔
      ¬" of ".toList <:+: (src.textUpTo statement body).toList := by
  rw [← Text.occurs_iff, overHeader]
  split
  · next h => exact iff_of_false LoopKind.noConfusion (not_not_intro h)
  · next h => exact iff_of_true rfl h

end Repetition

namespace Reader

/-- A loop over a collection goes over elements just if ` of ` stands in its header. So the operator
`of` is heeded just if it has a blank on either side or ` of ` stands elsewhere in the header, and
the operator `in` just if it does not. -/
theorem header_blanks_tell_loops {r : Reader} {n : Node} {repetition : Repetition}
    (hkind : n.kind = .forInStatement) (h : r.LoopsAs .statement n repetition) :
    ∃ body, n.child? .body = some body ∧
      (repetition.kind = .forOf ↔ " of ".toList <:+: (r.source.textUpTo n body).toList) ∧
      (repetition.kind = .forIn ↔ ¬" of ".toList <:+: (r.source.textUpTo n body).toList) ∧
      ∀ operator, n.child? .operator = some operator → r.source.CutsHeader n operator body →
        let before := (r.source.slice n.start operator.start).toList
        let after := (r.source.slice operator.stop body.start).toList
        (r.source.text operator = "of" → (repetition.kind = .forOf ↔
          " of ".toList <:+: before ∨ " of ".toList <:+: after ∨
            [' '] <:+ before ∧ [' '] <+: after)) ∧
        (r.source.text operator = "in" → (repetition.kind = .forIn ↔
          ¬" of ".toList <:+: before ∧ ¬" of ".toList <:+: after)) := by
  obtain ⟨body, hbody, rfl⟩ := h.forInStatement hkind
  have hof := Repetition.overHeader_kind_eq_forOf_iff r.source n body
  have hin := Repetition.overHeader_kind_eq_forIn_iff r.source n body
  refine ⟨body, hbody, hof, hin, fun operator _ hcuts => ⟨fun hword => ?_, fun hword => ?_⟩⟩
  · rw [hof, hcuts.textUpTo_eq, hword, Text.infix_around (.inl rfl)]
    simp
  · rw [hin, hcuts.textUpTo_eq, hword, Text.infix_around (.inr rfl)]
    simp

/-- The operator of `for (const x of [1, , 2]) step(a);` stands between blanks. -/
theorem header_blanks_tell_loops_hole :
    let r : Reader := ⟨Sample.holeSource, {}, { step := some "step" }⟩
    ∃ repetition operator body, Sample.holeLoop.child? .operator = some operator ∧
      r.source.text operator = "of" ∧ r.source.CutsHeader Sample.holeLoop operator body ∧
      r.LoopsAs .statement Sample.holeLoop repetition ∧ repetition.kind = .forOf := by
  intro r
  have hloop : r.LoopsAs .statement Sample.holeLoop (.ofBound .forOf (some "[1, , 2]") (some 2)) :=
    .of_run (e := ⟨r.source, false, false⟩) (l := {}) (by decide +kernel)
  have hword : r.source.text (Sample.roleToken .operator "of" 13) = "of" := by decide +kernel
  have hcuts : r.source.CutsHeader Sample.holeLoop (Sample.roleToken .operator "of" 13)
      (Sample.loopBody 26) := ⟨by decide, by decide, by decide, by decide +kernel⟩
  have hblanks : [' '] <:+ (r.source.slice 0 13).toList ∧
      [' '] <+: (r.source.slice 15 26).toList := by
    decide +kernel
  obtain ⟨body, hbody, -, -, h⟩ := header_blanks_tell_loops rfl hloop
  obtain rfl : Sample.loopBody 26 = body := Option.some.inj hbody
  exact ⟨_, _, _, rfl, hword, hcuts, hloop, ((h _ rfl hcuts).1 hword).2 (.inr (.inr hblanks))⟩

end Reader

namespace Sample

def closeSource : Source := .ofString "sample.ts" "for (const x of[1, 2]) step(a);"

def closeLoop : Node :=
  part .forInStatement 0 31 [
    token "for" 0, token "(" 4, roleToken .kind "const" 5, role .left .identifier 11 12 [],
    roleToken .operator "of" 13,
    role .right .array 15 21 [
      token "[" 15, part .number 16 17 [], token "," 17, part .number 19 20 [], token "]" 20],
    token ")" 21, loopBody 23]

def quoteSource : Source := .ofString "sample.ts" "for (const k in f(\" of \")) step(a);"

def quoteLoop : Node :=
  part .forInStatement 0 35 [
    token "for" 0, token "(" 4, roleToken .kind "const" 5, role .left .identifier 11 12 [],
    roleToken .operator "in" 13,
    role .right .callExpression 16 25 [
      role .function .identifier 16 17 [],
      role .arguments .arguments 17 25 [
        token "(" 17,
        part .string 18 24 [
          token "\"" 18, part (.other "string_fragment") 19 23 [], token "\"" 23],
        token ")" 24]],
    token ")" 25, loopBody 27]

end Sample

namespace Reader

/-- A loop over elements is taken for one over keys if its operator touches the array, and a loop
over keys for one over elements if ` of ` stands in a string. -/
theorem headers_mislead :
    let r : Reader := ⟨Sample.closeSource, {}, { step := some "step" }⟩
    let s : Reader := ⟨Sample.quoteSource, {}, { step := some "step" }⟩
    (∃ repetition operator, Sample.closeLoop.child? .operator = some operator ∧
      r.source.text operator = "of" ∧ r.LoopsAs .statement Sample.closeLoop repetition ∧
      repetition.kind = .forIn ∧ repetition.boundKnown = false) ∧
    ∃ repetition operator, Sample.quoteLoop.child? .operator = some operator ∧
      s.source.text operator = "in" ∧ s.LoopsAs .statement Sample.quoteLoop repetition ∧
      repetition.kind = .forOf := by
  intro r s
  have hr : r.LoopsAs .statement Sample.closeLoop (.ofBound .forIn (some "[1, 2]") none) :=
    .of_run (e := ⟨r.source, false, false⟩) (l := {}) (by decide +kernel)
  have hs : s.LoopsAs .statement Sample.quoteLoop (.ofBound .forOf (some "f(\" of \")") none) :=
    .of_run (e := ⟨s.source, false, false⟩) (l := {}) (by decide +kernel)
  exact ⟨⟨_, _, rfl, by decide +kernel, hr, rfl, rfl⟩, _, _, rfl, by decide +kernel, hs, rfl⟩

end Reader

end FlowShape
