import Mathlib.Data.Set.Card
import FlowShape.Proofs.Number.Spelling
import FlowShape.Proofs.Reading.Loops
import FlowShape.Proofs.Scope.Declaration
import FlowShape.Scope.Import

/-!
# Counted loops

A counted loop declares one counter, compares it with a limit and adds one to it after each round.
How often it runs its body is stated by running the header, and told apart from the number that the
loop is given as its bound, which is worked out in floating point: the bound is the number of rounds
up to `2 ^ 53` rounds, and from there on only for every second or every fourth number.
-/

namespace FlowShape

/-- What a counted loop says in its header. -/
structure LoopHeader where
  counter : String
  first : Node
  limit : Node
  /-- The counter reaches the limit. -/
  inclusive : Bool

namespace LoopHeader

variable {inclusive : Bool} {start stop i : Int} {n : Nat}

/-! ## Rounds -/

/-- The counter passes the test of the header. -/
def Passes (inclusive : Bool) (stop i : Int) : Prop := if inclusive then i ≤ stop else i < stop

/-- From a value of the counter on, the header runs the body a number of times. -/
inductive Runs (inclusive : Bool) (stop : Int) : Int → Nat → Prop
  | done {i : Int} : ¬Passes inclusive stop i → Runs inclusive stop i 0
  | round {i : Int} {n : Nat} : Passes inclusive stop i → Runs inclusive stop (i + 1) n →
      Runs inclusive stop i (n + 1)

/-- The number of values that the counter takes and that pass the test. -/
noncomputable def rounds (inclusive : Bool) (start stop : Int) : Nat :=
  {k : Nat | Passes inclusive stop (start + k)}.ncard

theorem passes_iff : Passes inclusive stop i ↔ i < stop + inclusive.toNat := by
  cases inclusive with
  | false => simp [Passes]
  | true => exact Int.lt_add_one_iff.symm

theorem rounds_eq (inclusive : Bool) (start stop : Int) :
    rounds inclusive start stop = (stop + inclusive.toNat - start).toNat := by
  have hset : {k : Nat | Passes inclusive stop (start + k)} =
      Finset.range (stop + inclusive.toNat - start).toNat := by
    ext k
    rw [Set.mem_ofPred_eq, passes_iff, Finset.mem_coe, Finset.mem_range]
    omega
  rw [rounds, hset, Set.ncard_coe_finset, Finset.card_range]

theorem runs_iff : Runs inclusive stop start n ↔ n = rounds inclusive start stop := by
  rw [rounds_eq]
  constructor
  · intro h
    induction h with
    | done hstop =>
      rw [passes_iff] at hstop
      omega
    | round hpass _ ih =>
      rw [passes_iff] at hpass
      omega
  · intro hn
    -- each round moves the start up by one
    induction n generalizing start with
    | zero => exact .done (passes_iff.not.2 (by omega))
    | succ n ih => exact .round (passes_iff.2 (by omega)) (ih (by omega))

/-! ## Bounds -/

/-- A bound is the number of rounds just if there are not too many of them or their number is a
multiple of two, or of four if the limit is reached. It is never far off. -/
structure Approximates (inclusive : Bool) (bound rounds : Nat) : Prop where
  eq_iff : bound = rounds ↔ rounds ≤ 2 ^ 53 ∨ (if inclusive then 4 else 2) ∣ rounds
  le : bound ≤ rounds + 1
  ge : rounds ≤ bound + 2

/-- What a bound says about the rounds of a header that starts and stops at given values. -/
def Bounds (header : LoopHeader) (start stop : Int) (bound : Nat) : Prop :=
  ∃ n, Runs header.inclusive stop start n ∧ n = rounds header.inclusive start stop ∧
    Approximates header.inclusive bound n

end LoopHeader

namespace Number

theorem clampToNat_intCast {z : Int} (h : z ≤ 2 ^ 54) : clampToNat (finite z) = z.toNat := by
  have hle : z.toNat ≤ maxRounds := by
    unfold maxRounds
    omega
  simp [clampToNat, hle]

theorem nearest_le {z : Int} (h : z.natAbs < 2 ^ 54) : nearest z ≤ 2 ^ 54 := by
  unfold nearest
  split_ifs <;> omega

theorem roundsBetween_eq {start stop : Int} (hstart : start.natAbs < 2 ^ 53)
    (hstop : stop.natAbs < 2 ^ 53) (inclusive : Bool) :
    roundsBetween start stop inclusive =
      (if inclusive then nearest (nearest (stop - start) + 1)
        else nearest (stop - start)).toNat := by
  have hround : round (stop - start : Int) = finite (nearest (stop - start)) :=
    round_intCast (by omega)
  have hlt : (nearest (stop - start) + 1).natAbs < 2 ^ 54 := by
    unfold nearest
    split_ifs <;> omega
  have hadd : (finite (nearest (stop - start))).addRat 1 =
      finite (nearest (nearest (stop - start) + 1)) := by
    rw [addRat, ← round_intCast hlt]
    push_cast
    rfl
  rw [roundsBetween, hround, hadd]
  cases inclusive with
  | false => exact clampToNat_intCast (nearest_le (by omega))
  | true => exact clampToNat_intCast (nearest_le hlt)

theorem approximates_nearest (d : Int) :
    LoopHeader.Approximates false (nearest d).toNat d.toNat := by
  constructor <;> simp only [Bool.false_eq_true, if_false, nearest] <;> split_ifs <;> omega

-- A difference of `2 ^ 53` or more is rounded to an even number. With one added it is odd, and the
-- second rounding takes it to a multiple of four.
theorem approximates_nearest_succ (d : Int) :
    LoopHeader.Approximates true (nearest (nearest d + 1)).toNat (d + 1).toNat := by
  constructor <;> simp only [if_true, nearest] <;> split_ifs <;> omega

theorem approximates_roundsBetween {start stop : Int} (hstart : start.natAbs < 2 ^ 53)
    (hstop : stop.natAbs < 2 ^ 53) (inclusive : Bool) :
    LoopHeader.Approximates inclusive (roundsBetween start stop inclusive)
      (LoopHeader.rounds inclusive start stop) := by
  rw [roundsBetween_eq hstart hstop, LoopHeader.rounds_eq, add_sub_right_comm]
  cases inclusive with
  | false => simpa using approximates_nearest (stop - start)
  | true => exact approximates_nearest_succ (stop - start)

end Number

/-! ## Headers -/

namespace Source

variable {src : Source} {statement : Node} {counter : String} {header : LoopHeader}

/-- An expression adds one to a counter. -/
inductive AddsOne (src : Source) (counter : String) : Node → Prop
  | increment {n argument operator : Node} : n.kind = .updateExpression →
      n.child? .argument = some argument → src.text argument = counter →
      n.child? .operator = some operator → src.text operator = "++" → AddsOne src counter n
  | addition {n left operator right : Node} : n.kind = .augmentedAssignmentExpression →
      n.child? .left = some left → src.text left = counter →
      n.child? .operator = some operator → src.text operator = "+=" →
      n.child? .right = some right → src.wholeLiteral? right = some 1 → AddsOne src counter n

/-- A loop statement has a header that counts. -/
structure Counts (src : Source) (statement : Node) (header : LoopHeader) : Prop where
  starts : ∃ initializer declarator name, statement.child? .initializer = some initializer ∧
    initializer.partsOf .variableDeclarator = [declarator] ∧
    declarator.child? .name = some name ∧ src.text name = header.counter ∧
    declarator.child? .value = some header.first
  ends : ∃ condition left operator, statement.loopCondition? = some condition ∧
    condition.kind = .binaryExpression ∧
    condition.child? .left = some left ∧ src.text left = header.counter ∧
    condition.child? .operator = some operator ∧
    src.text operator = (if header.inclusive then "<=" else "<") ∧
    condition.child? .right = some header.limit
  steps : ∃ increment, statement.child? .increment = some increment ∧
    src.AddsOne header.counter increment

theorem childText?_eq_some_iff {n : Node} {f : Field} {text : String} :
    src.childText? n f = some text ↔ ∃ c, n.child? f = some c ∧ src.text c = text := by
  simp [childText?]

theorem stepsByOne_iff {n : Node} : src.stepsByOne counter n ↔ src.AddsOne counter n := by
  constructor
  · intro h
    unfold stepsByOne at h
    split at h
    · next hkind =>
      simp only [Bool.and_eq_true, beq_iff_eq, childText?_eq_some_iff] at h
      obtain ⟨⟨argument, hargument, hcounter⟩, operator, hoperator, hplus⟩ := h
      exact .increment hkind hargument hcounter hoperator hplus
    · next hkind =>
      simp only [Bool.and_eq_true, beq_iff_eq, childText?_eq_some_iff,
        Option.bind_eq_some_iff] at h
      obtain ⟨⟨⟨left, hleft, hcounter⟩, operator, hoperator, hplus⟩, right, hright, hone⟩ := h
      exact .addition hkind hleft hcounter hoperator hplus hright hone
    · cases h
  · intro h
    cases h with
    | increment hkind hargument hcounter hoperator hplus =>
      simp [stepsByOne, hkind, childText?, hargument, hcounter, hoperator, hplus]
    | addition hkind hleft hcounter hoperator hplus hright hone =>
      simp [stepsByOne, hkind, childText?, hleft, hcounter, hoperator, hplus, hright, hone]

theorem loopStart?_eq_some_iff {first : Node} :
    src.loopStart? statement = some (counter, first) ↔
      ∃ initializer declarator name, statement.child? .initializer = some initializer ∧
        initializer.partsOf .variableDeclarator = [declarator] ∧
        declarator.child? .name = some name ∧ src.text name = counter ∧
        declarator.child? .value = some first := by
  constructor
  · intro h
    obtain ⟨initializer, hinitializer, h⟩ := Option.bind_eq_some_iff.1 h
    split at h
    · next declarator hdeclarator =>
      obtain ⟨text, htext, h⟩ := Option.bind_eq_some_iff.1 h
      obtain ⟨value, hvalue, h⟩ := Option.bind_eq_some_iff.1 h
      obtain ⟨name, hname, rfl⟩ := childText?_eq_some_iff.1 htext
      cases h
      exact ⟨initializer, declarator, name, hinitializer, hdeclarator, hname, rfl, hvalue⟩
    · cases h
  · rintro ⟨initializer, declarator, name, hinitializer, hdeclarator, hname, rfl, hvalue⟩
    rw [Node.partsOf] at hdeclarator
    simp [loopStart?, hinitializer, hdeclarator, childText?, hname, hvalue]

theorem loopLimit?_eq_some_iff {condition limit : Node} {inclusive : Bool} :
    src.loopLimit? counter condition = some (limit, inclusive) ↔
      ∃ left operator, condition.kind = .binaryExpression ∧
        condition.child? .left = some left ∧ src.text left = counter ∧
        condition.child? .operator = some operator ∧
        src.text operator = (if inclusive then "<=" else "<") ∧
        condition.child? .right = some limit := by
  constructor
  · intro h
    obtain ⟨_, hkind, h⟩ := Option.bind_eq_some_iff.1 h
    obtain ⟨text, htext, h⟩ := Option.bind_eq_some_iff.1 h
    obtain ⟨_, hcounter, h⟩ := Option.bind_eq_some_iff.1 h
    obtain ⟨limit', hlimit, h⟩ := Option.bind_eq_some_iff.1 h
    obtain ⟨comparison, hcomparison, h⟩ := Option.bind_eq_some_iff.1 h
    obtain ⟨left, hleft, htext⟩ := childText?_eq_some_iff.1 htext
    obtain ⟨operator, hoperator, hcomparison⟩ := childText?_eq_some_iff.1 hcomparison
    rw [Option.guard_eq_some'] at hkind hcounter
    refine ⟨left, operator, hkind, hleft, htext.trans hcounter, hoperator, ?_⟩
    split at h
    · cases h
      exact ⟨hcomparison, hlimit⟩
    · cases h
      exact ⟨hcomparison, hlimit⟩
    · cases h
  · rintro ⟨left, operator, hkind, hleft, rfl, hoperator, hcomparison, hlimit⟩
    have hguard {p : Prop} [Decidable p] (hp : p) : (guard p : Option Unit) = some () :=
      (Option.guard_eq_some' ()).2 hp
    rw [loopLimit?, hguard hkind, childText?, hleft, childText?, hoperator, hlimit]
    cases inclusive <;> simp_all

theorem countedBound?_eq_some_iff {bound : Nat} : src.countedBound? statement = some bound ↔
    ∃ header start stop, src.Counts statement header ∧ src.wholeLiteral? header.first = some start ∧
      src.wholeLiteral? header.limit = some stop ∧
      bound = Number.roundsBetween start stop header.inclusive := by
  constructor
  · intro h
    obtain ⟨⟨counter, first⟩, hstart, h⟩ := Option.bind_eq_some_iff.1 h
    obtain ⟨condition, hcondition, h⟩ := Option.bind_eq_some_iff.1 h
    obtain ⟨⟨limit, inclusive⟩, hlimit, h⟩ := Option.bind_eq_some_iff.1 h
    obtain ⟨increment, hincrement, h⟩ := Option.bind_eq_some_iff.1 h
    obtain ⟨_, hsteps, h⟩ := Option.bind_eq_some_iff.1 h
    obtain ⟨start, hfirst, h⟩ := Option.bind_eq_some_iff.1 h
    obtain ⟨stop, hstop, h⟩ := Option.bind_eq_some_iff.1 h
    obtain ⟨left, operator, hlimit⟩ := loopLimit?_eq_some_iff.1 hlimit
    have hone : src.AddsOne counter increment :=
      stepsByOne_iff.1 ((Option.guard_eq_some' _).1 hsteps)
    have hcounts : src.Counts statement ⟨counter, first, limit, inclusive⟩ :=
      ⟨loopStart?_eq_some_iff.1 hstart, ⟨condition, left, operator, hcondition, hlimit⟩,
        increment, hincrement, hone⟩
    exact ⟨_, start, stop, hcounts, hfirst, hstop, (Option.some.inj h).symm⟩
  · rintro ⟨⟨counter, first, limit, inclusive⟩, start, stop, hcounts, hfirst, hstop, rfl⟩
    obtain ⟨hstarts, hends, increment, hincrement, hone⟩ := hcounts
    obtain ⟨condition, left, operator, hcondition, hlimit⟩ := hends
    have hguard : (guard (src.stepsByOne counter increment = true) : Option Unit) = some () :=
      (Option.guard_eq_some' ()).2 (stepsByOne_iff.2 hone)
    rw [countedBound?, loopStart?_eq_some_iff.2 hstarts]
    simp only [Option.bind_eq_bind, Option.bind_some, hcondition,
      loopLimit?_eq_some_iff.2 ⟨left, operator, hlimit⟩, hincrement, hguard]
    dsimp only at hfirst hstop
    rw [hfirst, hstop]
    rfl

theorem binds_identifier_iff {p : Node} {x : String} (h : p.kind = .identifier) :
    src.Binds x p ↔ src.text p = x := by
  refine ⟨fun hbinds => ?_, .identifier h⟩
  cases hbinds <;> simp_all

/-- The only name that a counting header declares is its counter. -/
theorem Counts.declares_iff {initializer : Node} (h : src.Counts statement header)
    (hinitializer : statement.child? .initializer = some initializer)
    (hkind : initializer.kind = .lexicalDeclaration ∨ initializer.kind = .variableDeclaration)
    (hnames : ∀ declarator ∈ initializer.partsOf .variableDeclarator,
      ∀ name, declarator.child? .name = some name → name.kind = .identifier) (x : String) :
    src.Declares x initializer ↔ x = header.counter := by
  obtain ⟨initializer', declarator, name, hinitializer', hdeclarators, hname, htext, -⟩ := h.starts
  obtain rfl : initializer = initializer' := by
    rw [hinitializer] at hinitializer'
    exact Option.some.inj hinitializer'
  have hidentifier : name.kind = .identifier :=
    hnames declarator (by simp [hdeclarators]) name hname
  have hmem (d : Node) : d ∈ initializer.parts ∧ d.kind = .variableDeclarator ↔ d = declarator := by
    have hd : d ∈ initializer.partsOf .variableDeclarator ↔ d = declarator := by
      rw [hdeclarators, List.mem_singleton]
    simpa [Node.partsOf] using hd
  have hdeclarator : declarator.kind = .variableDeclarator := ((hmem declarator).2 rfl).2
  have hbinds : src.Binds x declarator ↔ header.counter = x := by
    simp [binds_declarator_iff hdeclarator, hname, binds_identifier_iff hidentifier, htext]
  rw [declares_binding_iff hkind]
  constructor
  · rintro ⟨d, hd, hdeclares, hx⟩
    obtain rfl := (hmem d).1 ⟨hd, hdeclares⟩
    exact (hbinds.1 hx).symm
  · intro hx
    exact ⟨declarator, ((hmem declarator).2 rfl).1, hdeclarator, hbinds.2 hx.symm⟩

end Source

theorem LoopHeader.bounds_roundsBetween (header : LoopHeader) {start stop : Int}
    (hstart : start.natAbs < 2 ^ 53) (hstop : stop.natAbs < 2 ^ 53) :
    header.Bounds start stop (Number.roundsBetween start stop header.inclusive) :=
  ⟨_, runs_iff.2 rfl, rfl, Number.approximates_roundsBetween hstart hstop header.inclusive⟩

/-- A loop whose header counts between whole numbers below `2 ^ 53` is given a bound, and no other
loop is. The bound is the number of rounds just if that is at most `2 ^ 53`, or a multiple of two,
or of four if the limit is reached. -/
theorem Reader.counted_bounds_tell_rounds (r : Reader) (n : Node) :
    (∀ header start stop, r.source.Counts n header →
      r.source.Spells header.first start → r.source.Spells header.limit stop →
      start.natAbs < 2 ^ 53 → stop.natAbs < 2 ^ 53 →
      ∃ bound, r.source.countedBound? n = some bound ∧ header.Bounds start stop bound) ∧
    (∀ bound, r.source.countedBound? n = some bound →
      ∃ header start stop, r.source.Counts n header ∧
        r.source.wholeLiteral? header.first = some start ∧
        r.source.wholeLiteral? header.limit = some stop ∧
        (start.natAbs < 2 ^ 53 → stop.natAbs < 2 ^ 53 → header.Bounds start stop bound)) ∧
    (∀ header initializer, r.source.Counts n header → n.child? .initializer = some initializer →
      initializer.kind = .lexicalDeclaration ∨ initializer.kind = .variableDeclaration →
      (∀ declarator ∈ initializer.partsOf .variableDeclarator,
        ∀ name, declarator.child? .name = some name → name.kind = .identifier) →
      ∀ x, r.source.Declares x initializer ↔ x = header.counter) ∧
    ∀ repetition, n.kind = .forStatement → r.LoopsAs .statement n repetition →
      repetition.kind = .forLoop ∧ repetition.boundCount = r.source.countedBound? n ∧
        repetition.boundKnown = repetition.boundCount.isSome := by
  refine ⟨fun header start stop hcounts hfirst hlimit hstart hstop => ?_, fun bound h => ?_,
    fun header initializer hcounts hinitializer hkind hnames x =>
      hcounts.declares_iff hinitializer hkind hnames x, fun repetition hkind h => ?_⟩
  · have hbound := Source.countedBound?_eq_some_iff.2 ⟨header, start, stop, hcounts,
      hfirst.wholeLiteral?_eq hstart, hlimit.wholeLiteral?_eq hstop, rfl⟩
    exact ⟨_, hbound, header.bounds_roundsBetween hstart hstop⟩
  · obtain ⟨header, start, stop, hcounts, hfirst, hlimit, rfl⟩ :=
      Source.countedBound?_eq_some_iff.1 h
    exact ⟨header, start, stop, hcounts, hfirst, hlimit, header.bounds_roundsBetween⟩
  · obtain rfl := h.forStatement hkind
    exact ⟨rfl, rfl, rfl⟩

namespace Sample

def shortSource : Source := .ofString "sample.ts" "for (let i = -0x1; i <= (1_0); ++i) step(a);"
def longSource : Source :=
  .ofString "sample.ts" "for (let i = -2; i < 9007199254740991; i += 1) step(a);"

def shortFirst : Node :=
  role .value .unaryExpression 13 17 [roleToken .operator "-" 13, role .argument .number 14 17 []]

def shortLimit : Node :=
  role .right .parenthesizedExpression 24 29 [
    token "(" 24, part .number 25 28 [], token ")" 28]

def shortInitializer : Node :=
  role .initializer .lexicalDeclaration 5 18 [
    roleToken .kind "let" 5,
    part .variableDeclarator 9 17 [
      role .name .identifier 9 10 [], token "=" 11, shortFirst],
    token ";" 17]

def shortLoop : Node :=
  part .forStatement 0 44 [
    token "for" 0, token "(" 4, shortInitializer,
    role .condition .binaryExpression 19 29 [
      role .left .identifier 19 20 [], roleToken .operator "<=" 21, shortLimit],
    roleToken .condition ";" 29,
    role .increment .updateExpression 31 34 [
      roleToken .operator "++" 31, role .argument .identifier 33 34 []],
    token ")" 34, loopBody 36]

def longFirst : Node :=
  role .value .unaryExpression 13 15 [roleToken .operator "-" 13, role .argument .number 14 15 []]

def longLimit : Node := role .right .number 21 37 []

/-- A loop of `2 ^ 53 + 1` rounds. -/
def longLoop : Node :=
  part .forStatement 0 55 [
    token "for" 0, token "(" 4,
    role .initializer .lexicalDeclaration 5 16 [
      roleToken .kind "let" 5,
      part .variableDeclarator 9 15 [
        role .name .identifier 9 10 [], token "=" 11, longFirst],
      token ";" 15],
    role .condition .binaryExpression 17 37 [
      role .left .identifier 17 18 [], roleToken .operator "<" 19, longLimit],
    roleToken .condition ";" 37,
    role .increment .augmentedAssignmentExpression 39 45 [
      role .left .identifier 39 40 [], roleToken .operator "+=" 41,
      role .right .number 44 45 []],
    token ")" 45, loopBody 47]

end Sample

/-- A loop from `-0x1` up to `(1_0)` runs twelve rounds. -/
theorem Reader.counted_bounds_tell_rounds_short :
    let r : Reader := ⟨Sample.shortSource, {}, { step := some "step" }⟩
    let header : LoopHeader := ⟨"i", Sample.shortFirst, Sample.shortLimit, true⟩
    r.source.Counts Sample.shortLoop header ∧ r.source.Spells header.first (-1) ∧
      r.source.Spells header.limit 10 ∧ LoopHeader.Runs true 10 (-1) 12 ∧
      ∃ repetition, r.LoopsAs .statement Sample.shortLoop repetition ∧
        repetition.boundCount = some 12 ∧ repetition.boundKnown = true ∧
        ∀ x, r.source.Declares x Sample.shortInitializer ↔ x = "i" := by
  intro r header
  obtain ⟨hname, hleft, hcomparison, hargument, hplus, hminus, hone, hten⟩ :
      r.source.text (Sample.role .name .identifier 9 10 []) = "i" ∧
        r.source.text (Sample.role .left .identifier 19 20 []) = "i" ∧
        r.source.text (Sample.roleToken .operator "<=" 21) = "<=" ∧
        r.source.text (Sample.role .argument .identifier 33 34 []) = "i" ∧
        r.source.text (Sample.roleToken .operator "++" 31) = "++" ∧
        r.source.text (Sample.roleToken .operator "-" 13) = "-" ∧
        r.source.text (Sample.role .argument .number 14 17 []) = "0x1" ∧
        r.source.text (Sample.part .number 25 28 []) = "1_0" := by
    decide +kernel
  have hcounts : r.source.Counts Sample.shortLoop header :=
    ⟨⟨_, _, _, rfl, rfl, rfl, hname, rfl⟩, ⟨_, _, _, rfl, rfl, rfl, hleft, rfl, hcomparison, rfl⟩,
      _, rfl, .increment rfl rfl hargument rfl hplus⟩
  have hfirst : r.source.Spells header.first (-1) := by
    have hdigits : Number.Digits 16 ['1'] 1 := .one ⟨by decide, by decide⟩
    have hspells : Number.Spells "0x1".toList 1 :=
      .inBase (by decide : ('x'.toLower, 16) ∈ Number.baseLetters) hdigits
    exact .minus rfl rfl hminus rfl rfl (hone ▸ hspells)
  have hlimit : r.source.Spells header.limit 10 := by
    have hdigits : Number.Digits 10 ['1'] 1 := .one ⟨by decide, by decide⟩
    have hzero : Number.IsDigit 10 '0' 0 := ⟨by decide, by decide⟩
    have hspells : Number.Spells "1_0".toList 10 := .decimal (hdigits.separated hzero) (by decide)
    exact .inParentheses rfl rfl (.literal rfl (hten ▸ hspells))
  have hloop : r.LoopsAs .statement Sample.shortLoop (.ofBound .forLoop none (some 12)) :=
    .of_run (e := ⟨r.source, false, false⟩) (l := {}) (by decide +kernel)
  have hruns : LoopHeader.Runs true 10 (-1) 12 := by
    rw [LoopHeader.runs_iff, LoopHeader.rounds_eq]
    rfl
  obtain ⟨hbound, -, hdeclares, hloops⟩ := counted_bounds_tell_rounds r Sample.shortLoop
  obtain ⟨bound, hsome, n, hn, -, happroximates⟩ :=
    hbound header (-1) 10 hcounts hfirst hlimit (by decide) (by decide)
  obtain ⟨-, hcount, hknown⟩ := hloops _ rfl hloop
  refine ⟨hcounts, hfirst, hlimit, hruns, _, hloop, ?_, ?_, ?_⟩
  · obtain rfl : n = 12 := by rw [LoopHeader.runs_iff.1 hn, LoopHeader.runs_iff.1 hruns]
    rw [hcount, hsome, happroximates.eq_iff.2 (by decide)]
  · exact hknown
  · exact hdeclares header Sample.shortInitializer hcounts rfl (.inl rfl) (by decide +kernel)

/-- A loop of `2 ^ 53 + 1` rounds is given a bound of `2 ^ 53`. -/
theorem Source.long_bounds_are_rounded :
    let src := Sample.longSource
    ∃ header, src.Counts Sample.longLoop header ∧ header.inclusive = false ∧
      src.wholeLiteral? header.first = some (-2) ∧
      src.wholeLiteral? header.limit = some (2 ^ 53 - 1) ∧
      LoopHeader.Runs false (2 ^ 53 - 1) (-2) (2 ^ 53 + 1) ∧
      src.countedBound? Sample.longLoop = some (2 ^ 53) := by
  intro src
  obtain ⟨hname, hleft, hcomparison, hcounter, hplus, hone, hfirst, hlimit⟩ :
      src.text (Sample.role .name .identifier 9 10 []) = "i" ∧
        src.text (Sample.role .left .identifier 17 18 []) = "i" ∧
        src.text (Sample.roleToken .operator "<" 19) = "<" ∧
        src.text (Sample.role .left .identifier 39 40 []) = "i" ∧
        src.text (Sample.roleToken .operator "+=" 41) = "+=" ∧
        src.wholeLiteral? (Sample.role .right .number 44 45 []) = some 1 ∧
        src.wholeLiteral? Sample.longFirst = some (-2) ∧
        src.wholeLiteral? Sample.longLimit = some (2 ^ 53 - 1) := by
    decide +kernel
  have hcounts : src.Counts Sample.longLoop ⟨"i", Sample.longFirst, Sample.longLimit, false⟩ :=
    ⟨⟨_, _, _, rfl, rfl, rfl, hname, rfl⟩, ⟨_, _, _, rfl, rfl, rfl, hleft, rfl, hcomparison, rfl⟩,
      _, rfl, .addition rfl rfl hcounter rfl hplus rfl hone⟩
  refine ⟨_, hcounts, rfl, hfirst, hlimit, ?_, by decide +kernel⟩
  rw [LoopHeader.runs_iff, LoopHeader.rounds_eq]
  rfl

end FlowShape
