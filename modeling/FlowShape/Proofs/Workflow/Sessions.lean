import Mathlib.Algebra.GroupWithZero.Nat
import Mathlib.Data.List.Induction
import FlowShape.Proofs.Emission.Tally
import FlowShape.Proofs.Workflow.Relabeling

/-!
# Sessions

A session answers each request as if it were the first, but for the numbers in identifiers. These go
on from what earlier requests used up since the last new start.
-/

namespace FlowShape

/-- What is asked of a session: to analyse a file, at some time, or to number anew. -/
inductive Request where
  | analyze (now : Timestamp) (src : Source) (tree : Node)
  | reset

namespace Request

def isReset : Request → Bool
  | reset => true
  | analyze .. => false

/-- How many identifiers a request uses up by itself. -/
def cost (options : Options) : Request → Nat
  | analyze now src tree => (Analysis.run options now src tree 0).toOption.elim 0 (·.2)
  | reset => 0

theorem cost_of_error {options : Options} {now : Timestamp} {src : Source} {tree : Node}
    {error : Error} (h : Analysis.ofSource options now src tree = .error error) :
    (analyze now src tree).cost options = 0 := by
  rw [cost]
  unfold Analysis.ofSource at h
  cases hrun : Analysis.run options now src tree 0 with
  | error => rfl
  | ok p =>
    rw [hrun] at h
    cases h

/-- How many identifiers are used up by the requests after the last new start. -/
def spent (options : Options) (requests : List Request) : Nat :=
  ((requests.reverse.takeWhile (!·.isReset)).map (cost options)).sum

theorem spent_reset (options : Options) (requests : List Request) :
    spent options (requests ++ [reset]) = 0 := by
  simp [spent, isReset]

theorem spent_analyze (options : Options) (requests : List Request) (now : Timestamp)
    (src : Source) (tree : Node) :
    spent options (requests ++ [analyze now src tree]) =
      spent options requests + (analyze now src tree).cost options := by
  simp [spent, isReset, Nat.add_comm]

end Request

namespace Session

/-- The answer to a request, if it asks for one, and the session after it. -/
def perform (s : Session) : Request → Option (Except Error Analysis) × Session
  | .analyze now src tree =>
    let (answer, s) := { s with now }.analyze src tree
    (some answer, s)
  | .reset => (none, s.reset)

def after (s : Session) (requests : List Request) : Session :=
  requests.foldl (fun s request => (s.perform request).2) s

/-- The answers to requests one after the other. -/
def answers (s : Session) : List Request → List (Except Error Analysis)
  | [] => []
  | request :: rest => (s.perform request).1.toList ++ (s.perform request).2.answers rest

theorem answers_append (s : Session) (before after : List Request) :
    s.answers (before ++ after) = s.answers before ++ (s.after before).answers after := by
  induction before generalizing s with
  | nil => rfl
  | cons request rest ih => simp [answers, Session.after, ih]

/-- The clock of a session does not matter: each request brings its time along. -/
theorem answers_congr {s s' : Session} (hoptions : s.options = s'.options)
    (hused : s.used = s'.used) (requests : List Request) :
    s.answers requests = s'.answers requests := by
  induction requests generalizing s s' with
  | nil => rfl
  | cons request rest ih =>
    cases request with
    | reset =>
      have hrest : s.reset.answers rest = s'.reset.answers rest := ih hoptions rfl
      simp only [answers, perform, hrest]
    | analyze now src tree => simp only [answers, perform, hoptions, hused]

end Session

/-! ## What a request does -/

section

variable {options : Options} {t : Timestamp} (h : options.analyzedAt = some t)

include h

/-- With a fixed time, a file is analysed alike at any time and after any number of identifiers. -/
theorem Analysis.run_shift (now clock : Timestamp) (src : Source) (tree : Node) (used : Nat) :
    run options now src tree used =
      (run options clock src tree 0).map fun p => (p.1.relabel { shift := used }, p.2 + used) := by
  have hfile : (Assembly.ofFile options clock src tree).Relabels { shift := used }
      (Assembly.ofFile options now src tree) :=
    { source := rfl
      bindings := rfl
      analyzedAt := by simp [Assembly.ofFile, h]
      emitter := ⟨fun n => (Option.bind_fun_some _).symm, rfl⟩ }
  simpa using Analysis.run_relabel hfile rfl rfl 0

theorem Request.cost_analyze (now clock : Timestamp) (src : Source) (tree : Node) :
    (analyze now src tree).cost options = (analyze clock src tree).cost options := by
  rw [cost, Analysis.run_shift h now clock src tree 0, cost]
  cases Analysis.run options clock src tree 0 <;> rfl

namespace Session

variable {s : Session} (hs : s.options = options)

include hs

theorem perform_analyze (now clock : Timestamp) (src : Source) (tree : Node) :
    s.perform (.analyze now src tree) =
      (some ((Analysis.ofSource options clock src tree).map
          (Analysis.relabel { shift := s.used })),
        { s with now, used := s.used + (Request.analyze now src tree).cost options }) := by
  subst hs
  rw [Request.cost_analyze h now clock src tree]
  simp only [perform, analyze, Request.cost, Analysis.ofSource,
    Analysis.run_shift h now clock src tree s.used]
  cases Analysis.run s.options clock src tree 0 with
  | error error => rfl
  | ok p => simp [Except.map, Except.toOption, Nat.add_comm]

end Session

/-- After any requests, a new session has used up what was spent since the last new start. -/
theorem Session.after_eq (start : Timestamp) (requests : List Request) :
    (Session.after { options, now := start } requests).options = options ∧
      (Session.after { options, now := start } requests).used =
        Request.spent options requests := by
  induction requests using List.reverseRecOn with
  | nil => exact ⟨rfl, rfl⟩
  | append_singleton requests request ih =>
    obtain ⟨hoptions, hused⟩ := ih
    simp only [Session.after, List.foldl_append, List.foldl_cons, List.foldl_nil]
      at hoptions hused ⊢
    cases request with
    | reset => exact ⟨hoptions, (Request.spent_reset options requests).symm⟩
    | analyze now src tree =>
      rw [Session.perform_analyze h hoptions now now src tree, Request.spent_analyze, hused]
      exact ⟨hoptions, rfl⟩

end

/-! ## Whole sessions -/

/-- Each analysis in a session is the one of its file alone, with identifiers that go on from those
used up since the last new start. A file that is refused gives the error that it gives alone, and
all later answers are as if it had not been there. -/
theorem Session.answers_are_shifted (options : Options) (t : Timestamp)
    (h : options.analyzedAt = some t) (start now clock : Timestamp) (src : Source) (tree : Node)
    (before after : List Request) :
    ∃ rest,
      Session.answers { options, now := start } (before ++ .analyze now src tree :: after) =
        Session.answers { options, now := start } before ++
          (Analysis.ofSource options clock src tree).map
            (Analysis.relabel { shift := Request.spent options before }) :: rest ∧
      (∀ error, Analysis.ofSource options clock src tree = .error error →
        Session.answers { options, now := start } (before ++ after) =
          Session.answers { options, now := start } before ++ rest) ∧
      (before.getLast? = some .reset → Request.spent options before = 0) := by
  obtain ⟨hoptions, hused⟩ := Session.after_eq h start before
  rw [Session.answers_append, Session.answers_append, Session.answers,
    Session.perform_analyze h hoptions now clock src tree, hused]
  refine ⟨_, congrArg _ (List.singleton_append ..), ?_, ?_⟩
  · intro error herror
    have hcost : (Request.analyze now src tree).cost options = 0 := by
      rw [Request.cost_analyze h now clock src tree]
      exact Request.cost_of_error herror
    refine congrArg _ (Session.answers_congr ?_ ?_ after)
    · rfl
    · rw [hused, hcost, Nat.add_zero]
  · intro hlast
    obtain ⟨requests, rfl⟩ := List.getLast?_eq_some_iff.1 hlast
    exact Request.spent_reset options requests

/-- A file analysed twice: the second time its identifiers start after the six of the first. -/
theorem Session.answers_are_shifted_head :
    let options : Options := { assumeImported := true, analyzedAt := some ⟨0, 0, 0⟩ }
    let first : Request := .analyze ⟨0, 0, 1⟩ Sample.headSource Sample.headTree
    options.analyzedAt = some ⟨0, 0, 0⟩ ∧ Request.spent options [.reset, first] = 6 ∧
      ∃ rest,
        Session.answers { options, now := ⟨0, 0, 0⟩ }
            [.reset, first, .analyze ⟨0, 0, 2⟩ Sample.headSource Sample.headTree] =
          Session.answers { options, now := ⟨0, 0, 0⟩ } [.reset, first] ++
            (Analysis.ofSource options ⟨0, 0, 3⟩ Sample.headSource Sample.headTree).map
              (Analysis.relabel { shift := 6 }) :: rest := by
  intro options first
  have hspent : Request.spent options [.reset, first] = 6 := by decide +kernel
  obtain ⟨rest, hanswers, -⟩ := Session.answers_are_shifted options ⟨0, 0, 0⟩ rfl ⟨0, 0, 0⟩
    ⟨0, 0, 2⟩ ⟨0, 0, 3⟩ Sample.headSource Sample.headTree [.reset, first] []
  rw [hspent] at hanswers
  exact ⟨rfl, hspent, rest, hanswers⟩

end FlowShape
