import FlowShape.Proofs.Reading.Loops
import FlowShape.Proofs.Tree.Builder

/-!
# Loops over array literals

An array literal is a row of slots: elements, spreads and holes. A spread stands for any number of
elements, and a hole is visited by a `for` loop but not by `forEach` and `map`. The bound of a loop
over an array literal is the number of its parts: each spread counts once, no hole counts, and
remarks of the form `<!-- -->` count too. So the bound is the number of elements that the loop
visits just if there is no spread and there are as many visited holes as remarks.
-/

namespace FlowShape

/-! ## Slots -/

/-- What stands at a place of an array literal. -/
inductive Slot where
  | element
  | spread
  | hole
  deriving DecidableEq

namespace Slot

variable {skipsHoles : Bool} {slots : List Slot} {k bound : Nat}

/-- The numbers of elements that a slot may stand for. -/
def Gives (skipsHoles : Bool) : Slot → Nat → Prop
  | element, k => k = 1
  | spread, _ => True
  | hole, k => k = if skipsHoles then 0 else 1

/-- The numbers of elements that a loop over an array may visit. -/
inductive Visits (skipsHoles : Bool) : List Slot → Nat → Prop
  | nil : Visits skipsHoles [] 0
  | cons {slot : Slot} {slots : List Slot} {k l : Nat} : slot.Gives skipsHoles k →
      Visits skipsHoles slots l → Visits skipsHoles (slot :: slots) (k + l)

/-- The number of holes that a loop visits. -/
def visitedHoles (skipsHoles : Bool) (slots : List Slot) : Nat :=
  if skipsHoles then 0 else slots.count .hole

/-- The number of elements that a loop visits if every spread is empty. -/
def fewest (skipsHoles : Bool) (slots : List Slot) : Nat :=
  slots.count .element + visitedHoles skipsHoles slots

@[simp] theorem fewest_nil (skipsHoles : Bool) : fewest skipsHoles [] = 0 := by
  simp [fewest, visitedHoles]

theorem fewest_cons (skipsHoles : Bool) (slot : Slot) (slots : List Slot) :
    fewest skipsHoles (slot :: slots) = fewest skipsHoles [slot] + fewest skipsHoles slots := by
  cases skipsHoles <;> cases slot <;> simp [fewest, visitedHoles] <;> omega

theorem gives_fewest (slot : Slot) : slot.Gives skipsHoles (fewest skipsHoles [slot]) := by
  cases skipsHoles <;> cases slot <;> simp [Gives, fewest, visitedHoles]

theorem gives_iff {slot : Slot} (h : slot ≠ .spread) :
    slot.Gives skipsHoles k ↔ k = fewest skipsHoles [slot] := by
  cases skipsHoles <;> cases slot <;> simp_all [Gives, fewest, visitedHoles]

theorem visits_fewest (skipsHoles : Bool) (slots : List Slot) :
    Visits skipsHoles slots (fewest skipsHoles slots) := by
  induction slots with
  | nil => simpa using Visits.nil
  | cons slot slots ih =>
    rw [fewest_cons]
    exact .cons (gives_fewest slot) ih

theorem Visits.eq_fewest (h : Visits skipsHoles slots k) (hspread : .spread ∉ slots) :
    k = fewest skipsHoles slots := by
  induction h with
  | nil => simp
  | cons hgives _ ih =>
    rw [List.mem_cons, not_or] at hspread
    rw [fewest_cons, (gives_iff (Ne.symm hspread.1)).1 hgives, ih hspread.2]

/-- With a spread the number of elements is not fixed. -/
theorem visits_succ_fewest (h : .spread ∈ slots) :
    Visits skipsHoles slots (fewest skipsHoles slots + 1) := by
  induction slots with
  | nil => cases h
  | cons slot slots ih =>
    rw [fewest_cons]
    rcases List.mem_cons.1 h with rfl | h
    · have hgives : Gives skipsHoles .spread (fewest skipsHoles [.spread] + 1) := trivial
      rw [Nat.add_right_comm]
      exact .cons hgives (visits_fewest skipsHoles slots)
    · rw [Nat.add_assoc]
      exact .cons (gives_fewest slot) (ih h)

theorem visits_only_iff : (∀ k, Visits skipsHoles slots k → k = bound) ↔
    .spread ∉ slots ∧ fewest skipsHoles slots = bound := by
  constructor
  · intro h
    have hbound := h _ (visits_fewest skipsHoles slots)
    refine ⟨fun hspread => ?_, hbound⟩
    have hmore := h _ (visits_succ_fewest hspread)
    omega
  · rintro ⟨hspread, rfl⟩ k hk
    exact hk.eq_fewest hspread

end Slot

/-! ## Array literals -/

namespace Node

/-- A comma between the slots of an array. -/
def isComma (n : Node) : Bool := !n.label.named && n.kind == .other ","

/-- A remark of the form `<!-- -->`, which is not taken for a comment. -/
def isRemark (n : Node) : Bool := n.isPart && n.kind == .other "html_comment"

/-- The slots that the rest of an array literal has; the current one may be taken already. A comma
ends a slot, and the last slot is none if nothing stands in it. -/
def slotsFrom : Bool → List Node → List Slot
  | _, [] => []
  | taken, c :: cs =>
    if c.isComma then if taken then slotsFrom false cs else .hole :: slotsFrom false cs
    else if c.isPart && !c.isRemark then
      (if c.kind = .other "spread_element" then .spread else .element) :: slotsFrom true cs
    else slotsFrom taken cs

def slots (array : Node) : List Slot := slotsFrom false array.children

def remarks (array : Node) : List Node := array.children.filter isRemark

theorem isPart_of_isComma {n : Node} (h : n.isComma) : n.isPart = false := by
  rw [isComma, Bool.and_eq_true, Bool.not_eq_true'] at h
  rw [isPart, h.1, Bool.false_and]

theorem isRemark_of_not_isPart {n : Node} (h : n.isPart = false) : n.isRemark = false := by
  rw [isRemark, h, Bool.false_and]

theorem length_filter_isPart (taken : Bool) (cs : List Node) :
    (cs.filter isPart).length = (slotsFrom taken cs).count .element +
      (slotsFrom taken cs).count .spread + (cs.filter isRemark).length := by
  -- a comma changes whether the slot is taken, and with it the holes, but no other slots
  induction cs generalizing taken with
  | nil => rfl
  | cons c cs ih =>
    have hfalse := ih false
    have htrue := ih true
    have hsame := ih taken
    by_cases hcomma : c.isComma
    · have hpart := isPart_of_isComma hcomma
      have hremark := isRemark_of_not_isPart hpart
      cases taken <;> simpa [slotsFrom, hcomma, hpart, hremark] using hfalse
    · cases hpart : c.isPart with
      | false =>
        have hremark := isRemark_of_not_isPart hpart
        simpa [slotsFrom, hcomma, hpart, hremark] using hsame
      | true =>
        cases hremark : c.isRemark with
        | true =>
          simp [slotsFrom, hcomma, hpart, hremark]
          omega
        | false =>
          by_cases hspread : c.kind = .other "spread_element"
          · simp [slotsFrom, hcomma, hpart, hremark, hspread]
            omega
          · simp [slotsFrom, hcomma, hpart, hremark, hspread]
            omega

/-- The parts of an array literal are its elements, its spreads and its remarks. -/
theorem length_parts_eq (array : Node) : array.parts.length =
    array.slots.count .element + array.slots.count .spread + array.remarks.length :=
  length_filter_isPart false array.children

/-- What the bound of a loop over an array literal says about the elements that it visits. -/
structure BoundsElements (array : Node) (skipsHoles : Bool) (bound : Nat) : Prop where
  eq : bound = array.slots.count .element + array.slots.count .spread + array.remarks.length
  visits_iff : (∀ k, Slot.Visits skipsHoles array.slots k → k = bound) ↔
    .spread ∉ array.slots ∧ Slot.visitedHoles skipsHoles array.slots = array.remarks.length

theorem boundsElements_length_parts (array : Node) (skipsHoles : Bool) :
    array.BoundsElements skipsHoles array.parts.length where
  eq := array.length_parts_eq
  visits_iff := by
    rw [Slot.visits_only_iff, array.length_parts_eq, Slot.fewest]
    refine and_congr_right fun hspread => ?_
    rw [List.count_eq_zero.2 hspread]
    omega

theorem arrayBound?_eq_some_iff {n : Node} {bound : Nat} :
    n.arrayBound? = some bound ↔ n.unwrap.kind = .array ∧ bound = n.unwrap.parts.length := by
  rw [arrayBound?]
  split <;> simp_all [eq_comm]

end Node

/-! ## Loops -/

namespace Repetition

/-- A loop over a collection has a bound just if the collection is an array literal. -/
structure BoundsArray (repetition : Repetition) (collection : Option Node) (skipsHoles : Bool) :
    Prop where
  known_iff : repetition.boundKnown ↔ ∃ c, collection = some c ∧ c.unwrap.kind = .array
  bounds : ∀ c, collection = some c → c.unwrap.kind = .array →
    ∃ bound, repetition.boundCount = some bound ∧ c.unwrap.BoundsElements skipsHoles bound

theorem boundsArray_overElements (src : Source) (kind : LoopKind) (collection : Option Node)
    (skipsHoles : Bool) : (overElements src kind collection).BoundsArray collection skipsHoles where
  known_iff := by
    cases collection <;> simp [overElements, ofBound, Option.isSome_iff_exists,
      Node.arrayBound?_eq_some_iff]
  bounds := by
    rintro c rfl harray
    have hbound := Node.arrayBound?_eq_some_iff.2 ⟨harray, rfl⟩
    exact ⟨_, hbound, c.unwrap.boundsElements_length_parts skipsHoles⟩

end Repetition

namespace Reader

variable {r : Reader} {call : Node}

theorem kind_of_classify_iteration {kind : LoopKind}
    (h : r.classify call = some (.iteration kind)) : kind = .forEach ∨ kind = .map := by
  obtain ⟨function, hfunction, h⟩ := Option.bind_eq_some_iff.1 h
  simp only [Option.orElse_eq_orElse, Option.orElse_eq_or, Option.or_eq_some_iff] at h
  rcases h with h | ⟨-, h | ⟨-, h | ⟨-, h | ⟨-, h⟩⟩⟩⟩
  · obtain ⟨step, -, h⟩ := Option.bind_eq_some_iff.1 h
    split at h
    · cases h
    · obtain ⟨_, -, h⟩ := Option.map_eq_some_iff.1 h
      cases h
  · obtain ⟨_, -, h⟩ := Option.map_eq_some_iff.1 h
    cases h
  · obtain ⟨_, -, h⟩ := Option.map_eq_some_iff.1 h
    cases h
  · unfold iterationShape? at h
    split at h
    · split at h <;> simp_all
    · cases h
  · obtain ⟨f, -, h⟩ := Option.bind_eq_some_iff.1 h
    split_ifs at h <;> cases h

/-- A `for` statement over elements, and a call of `forEach` or `map`, has a known bound just if it
goes over an array literal, whatever stands in that. The bound counts elements, spreads and remarks.
So it is the number of elements visited, whatever the spreads stand for, just if there is no spread
and the holes that are visited are as many as the remarks. -/
theorem array_bounds_tell_elements (r : Reader) (n : Node) (repetition : Repetition) :
    (n.kind = .forInStatement → r.LoopsAs .statement n repetition →
      repetition.kind = .forOf ∧ repetition.BoundsArray (n.child? .right) false ∨
        repetition.kind = .forIn ∧ repetition.boundKnown = false) ∧
    ∀ kind, n.kind = .callExpression → r.classify n = some (.iteration kind) →
      r.LoopsAs .expression n repetition →
      repetition.kind = kind ∧ (kind = .forEach ∨ kind = .map) ∧
        repetition.BoundsArray n.receiver? true := by
  constructor
  · intro hkind h
    obtain ⟨body, -, rfl⟩ := h.forInStatement hkind
    rw [Repetition.overHeader]
    split
    · exact .inl ⟨rfl, Repetition.boundsArray_overElements ..⟩
    · exact .inr ⟨rfl, rfl⟩
  · intro kind hkind hshape h
    obtain rfl := h.iteration hkind hshape
    exact ⟨rfl, kind_of_classify_iteration hshape, Repetition.boundsArray_overElements ..⟩

end Reader

namespace Sample

def holeSource : Source := .ofString "sample.ts" "for (const x of [1, , 2]) step(a);"

def holeArray : Node :=
  role .right .array 16 24 [
    token "[" 16, part .number 17 18 [], token "," 18, token "," 20, part .number 22 23 [],
    token "]" 23]

def holeLoop : Node :=
  part .forInStatement 0 34 [
    token "for" 0, token "(" 4, roleToken .kind "const" 5, role .left .identifier 11 12 [],
    roleToken .operator "of" 13, holeArray, token ")" 24, loopBody 26]

def spreadSource : Source := .ofString "sample.ts" "[...xs].map(x => step(x))"

def spreadArray : Node :=
  role .object .array 0 7 [
    token "[" 0, part (.other "spread_element") 1 6 [token "..." 1, part .identifier 4 6 []],
    token "]" 6]

def spreadMember : Node :=
  role .function .memberExpression 0 11 [
    spreadArray, token "." 7, role .property (.other "property_identifier") 8 11 []]

def spreadCall : Node :=
  part .callExpression 0 25 [
    spreadMember,
    role .arguments .arguments 11 25 [token "(" 11, mapCallback 12, token ")" 24]]

end Sample

namespace Reader

/-- Neither the bound of a loop over `[1, , 2]` nor that of one over `[...xs]` is the number of
elements that the loop visits. -/
theorem array_bounds_tell_elements_hole_spread :
    let r : Reader := ⟨Sample.holeSource, {}, { step := some "step" }⟩
    let s : Reader := ⟨Sample.spreadSource, {}, { step := some "step" }⟩
    (∃ repetition, r.LoopsAs .statement Sample.holeLoop repetition ∧ repetition.boundKnown ∧
      repetition.boundCount = some 2 ∧
      ¬∀ k, Slot.Visits false Sample.holeArray.slots k → k = 2) ∧
    ∃ repetition, s.LoopsAs .expression Sample.spreadCall repetition ∧ repetition.boundKnown ∧
      repetition.boundCount = some 1 ∧
      ¬∀ k, Slot.Visits true Sample.spreadArray.slots k → k = 1 := by
  intro r s
  have hr : r.LoopsAs .statement Sample.holeLoop (.ofBound .forOf (some "[1, , 2]") (some 2)) :=
    .of_run (e := ⟨r.source, false, false⟩) (l := {}) (by decide +kernel)
  have hs : s.LoopsAs .expression Sample.spreadCall (.ofBound .map (some "[...xs]") (some 1)) :=
    .of_run (e := ⟨s.source, false, false⟩) (l := {}) (by decide +kernel)
  have hshape : s.classify Sample.spreadCall = some (.iteration .map) := by decide +kernel
  have hmember : Sample.spreadMember.unwrap = Sample.spreadMember :=
    Node.unwrap_of_not_transparent rfl
  have hreceiver : Sample.spreadCall.receiver? = some Sample.spreadArray :=
    congrArg (Node.child? · .object) hmember
  have hhole : Sample.holeArray.unwrap = Sample.holeArray := Node.unwrap_of_not_transparent rfl
  have hspread : Sample.spreadArray.unwrap = Sample.spreadArray :=
    Node.unwrap_of_not_transparent rfl
  obtain ⟨-, hknown⟩ | ⟨hkind, -⟩ := (array_bounds_tell_elements r Sample.holeLoop _).1 rfl hr
  · obtain ⟨-, -, hknown'⟩ :=
      (array_bounds_tell_elements s Sample.spreadCall _).2 .map rfl hshape hs
    obtain ⟨bound, hbound, hbounds⟩ := hknown.bounds Sample.holeArray rfl (by rw [hhole]; rfl)
    obtain ⟨bound', hbound', hbounds'⟩ :=
      hknown'.bounds Sample.spreadArray hreceiver (by rw [hspread]; rfl)
    rw [hhole] at hbounds
    rw [hspread] at hbounds'
    cases hbound
    cases hbound'
    refine ⟨⟨_, hr, rfl, rfl, fun h => ?_⟩, _, hs, rfl, rfl, fun h => ?_⟩
    · exact absurd (hbounds.visits_iff.1 h).2 (by decide)
    · exact absurd (hbounds'.visits_iff.1 h).1 (by decide)
  · cases hkind

end Reader

end FlowShape
