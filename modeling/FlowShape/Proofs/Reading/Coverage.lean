import FlowShape.Proofs.Emission.Retention
import FlowShape.Proofs.Emission.Tally
import FlowShape.Proofs.Reading.Descent
import FlowShape.Proofs.Workflow.Production

/-!
# Steps that are found

The steps of a callback are the calls of a step-like shape, and the branches of combinators that are
steps for want of another shape. Each of them that reading gets to becomes one node. Those behind a
place that reading overlooks, such as the head of a conditional, become none.
-/

namespace FlowShape

/-- A step of a callback; `reached` tells whether reading gets to it. -/
structure Candidate where
  node : Node
  reached : Bool

namespace Reader

mutual

/-- The steps in a node that is read in a role. Behind a place that reading overlooks, they are
looked for as in an expression. -/
def candidates (r : Reader) (m : Mode) (reached : Bool) : Node → List Candidate
  | .mk label children =>
    (if r.isStepAs m (.mk label children) then [⟨.mk label children, reached⟩] else []) ++
      r.candidatesFrom m reached (.mk label children) 0 children

/-- The steps in the children of a node from the place `i` on. -/
def candidatesFrom (r : Reader) (m : Mode) (reached : Bool) (n : Node) (i : Nat) :
    List Node → List Candidate
  | [] => []
  | c :: cs =>
    (match r.passage m n i c with
      | .enters m' => r.candidates m' reached c
      | .overlooks => r.candidates .expression false c
      | .seals => []) ++ r.candidatesFrom m reached n (i + 1) cs

end

/-- The steps in the body of a callback. -/
def stepCandidates (r : Reader) (callback : Node) : List Candidate :=
  (callback.inField .body).flatMap (r.candidates .body true)

variable {r : Reader} {m : Mode} {n : Node}

theorem candidates_eq (r : Reader) (m : Mode) (reached : Bool) (n : Node) :
    r.candidates m reached n = (if r.isStepAs m n then [⟨n, reached⟩] else []) ++
      n.collect fun i c =>
        match r.passage m n i c with
        | .enters m' => r.candidates m' reached c
        | .overlooks => r.candidates .expression false c
        | .seals => [] := by
  have key (cs : List Node) (k : Nat) : r.candidatesFrom m reached n k cs =
      (cs.zipIdx k).flatMap fun p =>
        match r.passage m n p.2 p.1 with
        | .enters m' => r.candidates m' reached p.1
        | .overlooks => r.candidates .expression false p.1
        | .seals => [] := by
    induction cs generalizing k with
    | nil => rw [candidatesFrom]; rfl
    | cons c cs ih => rw [candidatesFrom, ih, List.zipIdx_cons, List.flatMap_cons]
  cases n with
  | mk label children => rw [candidates, key children 0]; rfl

theorem not_reached_of_mem {c : Candidate} (h : c ∈ r.candidates m false n) :
    c.reached = false := by
  induction n using Node.childrenInduction generalizing m with
  | h n ih =>
    rw [candidates_eq, List.mem_append] at h
    rcases h with h | h
    · split at h
      · rw [List.mem_singleton.1 h]
      · cases h
    · obtain ⟨i, d, hd, hc⟩ := Node.mem_collect h
      split at hc
      · exact ih d hd hc
      · exact ih d hd hc
      · cases hc

/-- The nodes of the steps that reading gets to. -/
def reachedNodes (cs : List Candidate) : List Node := (cs.filter (·.reached)).map (·.node)

theorem reachedNodes_candidates (r : Reader) (m : Mode) (n : Node) :
    reachedNodes (r.candidates m true n) = (if r.isStepAs m n then [n] else []) ++
      n.collect fun i c =>
        (r.passage m n i c).lift fun m' => reachedNodes (r.candidates m' true c) := by
  have hnone (c : Node) : reachedNodes (r.candidates .expression false c) = [] := by
    rw [reachedNodes, List.map_eq_nil_iff, List.filter_eq_nil_iff]
    intro d hd
    simp [not_reached_of_mem hd]
  rw [candidates_eq, reachedNodes, List.filter_append, List.map_append]
  congr 1
  · split <;> rfl
  · simp only [Node.collect, List.filter_flatMap, List.map_flatMap]
    refine List.flatMap_congr fun p _ => ?_
    cases r.passage m n p.2 p.1 with
    | enters m' => rfl
    | overlooks => exact hnone p.1
    | seals => rfl

open Outline (stepOrigins)

theorem stepOrigins_of_built {isStep : Bool} {os ps : List Outline} (h : Built n isStep os ps) :
    (stepOrigins ps).Perm ((if isStep then [n] else []) ++ stepOrigins os) := by
  cases h with
  | pass => exact .refl _
  | leaf l => cases hl : l.isStep <;> simp [stepOrigins, hl]
  | wrap os o horigin hleaf =>
    have ho := Outline.leaves_of_not_isLeaf (o := o) (by simpa using hleaf)
    simp [stepOrigins, ho]

/-- Reading finds a step in each of the places that it gets to, and no others. -/
theorem stepOrigins_read (r : Reader) (m : Mode) (n : Node) :
    (stepOrigins (r.read m n)).Perm (reachedNodes (r.candidates m true n)) := by
  induction n using Node.childrenInduction generalizing m with
  | h n ih =>
    obtain ⟨os, hfound, hbuilt⟩ := r.readsInside m n
    have hos : (stepOrigins os).Perm (stepOrigins (r.inner m n)) :=
      ((hfound.perm.flatMap_right _).filter _).map _
    have hinner : (stepOrigins (r.inner m n)).Perm (n.collect fun i c =>
        (r.passage m n i c).lift fun m' => reachedNodes (r.candidates m' true c)) := by
      have hcollect : stepOrigins (r.inner m n) = n.collect fun i c =>
          stepOrigins ((r.passage m n i c).lift fun m' => r.read m' c) := by
        simp only [inner, Node.collect, stepOrigins, List.flatMap_assoc, List.filter_flatMap,
          List.map_flatMap]
      rw [hcollect]
      refine Node.collect_perm fun i c hc => ?_
      cases r.passage m n i c with
      | enters m' => exact ih c hc m'
      | overlooks | seals => exact .refl _
    rw [reachedNodes_candidates]
    exact (stepOrigins_of_built hbuilt).trans ((hos.trans hinner).append_left _)

theorem stepOrigins_callback (r : Reader) (callback : Node) :
    (stepOrigins (r.callback callback)).Perm (reachedNodes (r.stepCandidates callback)) := by
  have hread : r.callback callback = (callback.inField .body).flatMap (r.read .body) := by
    rw [Reader.callback]
    simp only [List.flatMap_subtype, List.unattach_attach]
    exact List.flatMap_congr fun body _ => (read_body body).symm
  rw [hread, stepCandidates, Node.inField]
  cases callback.child? .body with
  | none => exact .refl _
  | some body => simpa using r.stepOrigins_read .body body

end Reader

namespace Assembly

/-- What is known while the callback of an entry point is read. -/
def reader (a : Assembly) (entry : EntryPoint) (callback : Node) : Reader :=
  ⟨a.source, a.bindings, a.context entry callback⟩

theorem steps_workflow (a : Assembly) (entry : EntryPoint) (callback : Node) (used : Nat) :
    (((a.workflow entry callback used).1.walk.filter Flow.isStep).map (·.tag.location)).Perm
      ((Reader.reachedNodes ((a.reader entry callback).stepCandidates callback)).map
        a.emitter.location) := by
  have hkept := (a.emitter.emits_body (a.outline entry callback) { used }).kept
  exact .trans (.of_eq hkept.steps) ((Reader.stepOrigins_callback _ callback).map _)

end Assembly

/-- The step nodes of a workflow stand, one for one, at the steps of its callback that reading gets
to. So they are all there just if no step stands behind a place that reading overlooks. -/
theorem Analysis.step_nodes_are_reached_steps (options : Options) (now : Timestamp) (src : Source)
    (tree : Node) (used : Nat) (h : tree.label.flawed = false) :
    ∃ a after, Analysis.run options now src tree used = .ok (a, after) ∧
      ∀ w ∈ a.allWorkflows, ∃ entry ∈ src.entryPoints tree options, ∃ callback before,
        Assembly.bodyOf? entry = some callback ∧
        w.bare = ((Assembly.ofFile options now src tree).workflow entry callback before).1 ∧
        let steps := ((Assembly.ofFile options now src tree).reader entry callback).stepCandidates
          callback
        ((w.walk.filter Flow.isStep).map (·.tag.location)).Perm
          ((steps.filter (·.reached)).map fun c =>
            if options.includeLocations then some (src.location c.node) else none) ∧
        (w.stepCount = steps.length ↔ ∀ c ∈ steps, c.reached) := by
  refine Analysis.exists_run_forall h (fun w hw => hw) ?_
  intro entry hentry callback before hbody
  have hsteps := (Assembly.ofFile options now src tree).steps_workflow entry callback before
  refine ⟨entry, hentry, callback, before, hbody, rfl, ?_, ?_⟩
  · rw [Reader.reachedNodes, List.map_map] at hsteps
    exact hsteps
  · have hlength := hsteps.length_eq
    rw [Reader.reachedNodes, List.length_map, List.length_map, List.length_map,
      ← List.countP_eq_length_filter] at hlength
    rw [← List.length_filter_eq_length_iff, ← hlength]
    rfl

/-- The call in the head of the conditional is a step and has no node. -/
theorem Analysis.step_nodes_are_reached_steps_head :
    Sample.headTree.label.flawed = false ∧
      ∃ a after w, ∃ steps : List Candidate,
        Analysis.run { assumeImported := true } ⟨0, 0, 0⟩ Sample.headSource
          Sample.headTree 0 = .ok (a, after) ∧ w ∈ a.allWorkflows ∧
        steps.map (fun c => (c.node.start, c.reached)) =
          [(50, false), (61, true), (70, true)] ∧
        ((w.walk.filter Flow.isStep).map (·.tag.location)).Perm
          ((steps.filter (·.reached)).map fun c => some (Sample.headSource.location c.node)) ∧
        w.stepCount ≠ steps.length := by
  have hrun : ((Analysis.run { assumeImported := true } ⟨0, 0, 0⟩ Sample.headSource
      Sample.headTree 0).toOption.map fun p => p.1.allWorkflows.length) = some 1 := by
    decide +kernel
  have hentries : (Sample.headSource.entryPoints Sample.headTree { assumeImported := true }).all
      (fun entry => (Assembly.bodyOf? entry).all fun callback =>
        (((Assembly.ofFile { assumeImported := true } ⟨0, 0, 0⟩ Sample.headSource
          Sample.headTree).reader entry callback).stepCandidates callback).map
            (fun c => (c.node.start, c.reached)) = [(50, false), (61, true), (70, true)]) := by
    decide +kernel
  obtain ⟨a, after, h, hall⟩ := Analysis.step_nodes_are_reached_steps { assumeImported := true }
    ⟨0, 0, 0⟩ Sample.headSource Sample.headTree 0 rfl
  rw [h] at hrun
  obtain ⟨w, hw⟩ := List.length_eq_one_iff.1 (Option.some.inj hrun)
  have hmem : w ∈ a.allWorkflows := by simp [hw]
  obtain ⟨entry, hentry, callback, before, hbody, -, hperm, hiff⟩ := hall w hmem
  have hsteps := List.all_eq_true.1 hentries entry hentry
  simp only [hbody, Option.all_some, decide_eq_true_eq] at hsteps
  refine ⟨rfl, a, after, w, _, h, hmem, hsteps, hperm, ?_⟩
  rw [Ne, hiff]
  intro hreached
  obtain ⟨c, cs, hc, hfirst, -⟩ := List.map_eq_cons_iff.1 hsteps
  have := hreached c (by simp [hc])
  simp_all

end FlowShape
