import FlowShape.Proofs.Emission.Derivation
import FlowShape.Proofs.Emission.Tally
import FlowShape.Proofs.Flow.Id
import FlowShape.Proofs.Workflow.Production

/-!
# Numbers of flow nodes

A node takes the next number when it is complete. Numbers are therefore distinct, they grow from a
node to the one around it, and along a postorder they grow as well. Sequences are the exception to
the last: the two branches of a ternary are joined after both of them are there.
-/

namespace FlowShape

namespace Flow

/-- The number in the identifier of a node. -/
def number (f : Flow) : Nat := f.tag.id.number

theorem number_of_next {f : Flow} {used : Nat} {stem : String} (h : f.tag.id = Id.next used stem) :
    f.number = used + 1 := by
  rw [number, h, Id.number_next]

theorem mem_postorder {f g : Flow} : f ∈ g.postorder ↔ f ∈ g.walk := by
  induction g using childrenInduction with
  | h g ih =>
    rw [postorder_eq, walk_eq g]
    simp only [List.mem_append, List.mem_cons, List.mem_flatMap]
    grind

/-- The nodes other than sequences, each after all nodes below it. -/
def completed (ns : List Flow) : List Flow := (ns.flatMap postorder).filter (!·.isSequence)

@[simp] theorem completed_append (ns ms : List Flow) :
    completed (ns ++ ms) = completed ns ++ completed ms := by
  simp [completed]

theorem mem_walk_of_mem_completed {f : Flow} {ns : List Flow} (h : f ∈ completed ns) :
    f ∈ ns.flatMap walk := by
  obtain ⟨g, hg, hf⟩ := List.mem_flatMap.1 (List.mem_filter.1 h).1
  exact List.mem_flatMap.2 ⟨g, hg, mem_postorder.1 hf⟩

theorem completed_singleton (f : Flow) :
    completed [f] = completed f.children ++ if f.isSequence then [] else [f] := by
  cases hf : f.isSequence <;> simp [completed, postorder_eq f, hf]

/-- The nodes took their numbers after `lo`, and up to `hi`, in the order of their completion. -/
structure Numbered (lo : Nat) (ns : List Flow) (hi : Nat) : Prop where
  le : lo ≤ hi
  bounds : ∀ f ∈ ns.flatMap walk, lo < f.number ∧ f.number ≤ hi
  distinct : (ns.flatMap walk).Pairwise (·.number ≠ ·.number)
  inside : ∀ f ∈ ns.flatMap walk, ∀ g ∈ f.children.flatMap walk, g.number < f.number
  completion : (completed ns).Pairwise (·.number < ·.number)

namespace Numbered

variable {lo mid hi : Nat} {ns ms : List Flow} {f g : Flow}

theorem nil (h : lo ≤ hi) : Numbered lo [] hi where
  le := h
  bounds := nofun
  distinct := .nil
  inside := nofun
  completion := .nil

theorem append (h : Numbered lo ns mid) (h' : Numbered mid ms hi) : Numbered lo (ns ++ ms) hi where
  le := Nat.le_trans h.le h'.le
  bounds := by
    intro f hf
    rw [List.flatMap_append, List.mem_append] at hf
    rcases hf with hf | hf
    · exact ⟨(h.bounds f hf).1, Nat.le_trans (h.bounds f hf).2 h'.le⟩
    · exact ⟨Nat.lt_of_le_of_lt h.le (h'.bounds f hf).1, (h'.bounds f hf).2⟩
  distinct := by
    rw [List.flatMap_append]
    refine List.pairwise_append.2 ⟨h.distinct, h'.distinct, fun f hf g hg => ?_⟩
    exact Nat.ne_of_lt (Nat.lt_of_le_of_lt (h.bounds f hf).2 (h'.bounds g hg).1)
  inside := by
    rw [List.flatMap_append]
    exact List.forall_mem_append.2 ⟨h.inside, h'.inside⟩
  completion := by
    rw [completed_append]
    refine List.pairwise_append.2 ⟨h.completion, h'.completion, fun f hf g hg => ?_⟩
    exact Nat.lt_of_le_of_lt (h.bounds f (mem_walk_of_mem_completed hf)).2
      (h'.bounds g (mem_walk_of_mem_completed hg)).1

theorem lt_succ (h : Numbered lo ns hi) : ∀ f ∈ ns.flatMap walk, f.number < hi + 1 :=
  fun f hf => Nat.lt_succ_of_le (h.bounds f hf).2

/-- The next number goes to a node around all others. -/
theorem wrap (h : Numbered lo f.children hi) (hf : f.number = hi + 1) :
    Numbered lo [f] (hi + 1) where
  le := Nat.le_succ_of_le h.le
  bounds := by
    rw [List.flatMap_singleton, walk_eq]
    refine List.forall_mem_cons.2 ⟨?_, fun g hg => ?_⟩
    · have := h.le
      omega
    · exact ⟨(h.bounds g hg).1, Nat.le_succ_of_le (h.bounds g hg).2⟩
  distinct := by
    rw [List.flatMap_singleton, walk_eq]
    refine List.pairwise_cons.2 ⟨fun g hg => ?_, h.distinct⟩
    rw [hf]
    exact Nat.ne_of_gt (h.lt_succ g hg)
  inside := by
    rw [List.flatMap_singleton, walk_eq]
    exact List.forall_mem_cons.2 ⟨fun g hg => hf ▸ h.lt_succ g hg, h.inside⟩
  completion := by
    rw [completed_singleton]
    refine List.pairwise_append.2 ⟨h.completion, ?_, fun g hg f' hf' => ?_⟩
    · split <;> simp
    · split at hf'
      · cases hf'
      · rw [List.mem_singleton.1 hf', hf]
        exact h.lt_succ g (mem_walk_of_mem_completed hg)

/-- A node may be exchanged for another with the same number and the same children. -/
theorem replace (h : Numbered lo [f] hi) (hnumber : g.number = f.number)
    (hchildren : g.children = f.children) (hsequence : g.isSequence = f.isSequence) :
    Numbered lo [g] hi := by
  obtain ⟨hle, hbounds, hdistinct, hinside, hcompletion⟩ := h
  rw [List.flatMap_singleton, walk_eq] at hbounds hdistinct hinside
  rw [completed_singleton] at hcompletion
  constructor
  · exact hle
  · rw [List.flatMap_singleton, walk_eq, hchildren]
    refine List.forall_mem_cons.2 ⟨?_, fun x hx => hbounds x (by simp [hx])⟩
    rw [hnumber]
    exact hbounds f (by simp)
  · rw [List.flatMap_singleton, walk_eq, hchildren]
    refine List.pairwise_cons.2 ⟨?_, (List.pairwise_cons.1 hdistinct).2⟩
    simpa [hnumber] using (List.pairwise_cons.1 hdistinct).1
  · rw [List.flatMap_singleton, walk_eq, hchildren]
    refine List.forall_mem_cons.2 ⟨?_, fun x hx => hinside x (by simp [hx])⟩
    rw [hnumber, hchildren]
    exact hinside f (by simp)
  · rw [completed_singleton, hchildren, hsequence]
    split at hcompletion <;> simp_all [List.pairwise_append]

/-- Nodes next to each other may be put into a sequence with the next number. -/
theorem join {xs ys : List Flow} {tag : Tag} (h : Numbered lo (xs ++ ns ++ ys) hi)
    (htag : tag.id.number = hi + 1) : Numbered lo (xs ++ [sequence tag ns] ++ ys) (hi + 1) := by
  have hnew : (sequence tag ns).number = hi + 1 := htag
  have hperm := flatMap_walk_join tag xs ns ys
  have hmem : ∀ f, f ∈ (xs ++ [sequence tag ns] ++ ys).flatMap walk →
      f = sequence tag ns ∨ f ∈ (xs ++ ns ++ ys).flatMap walk :=
    fun f hf => List.mem_cons.1 (hperm.mem_iff.1 hf)
  have hmid : ∀ f, f ∈ ns.flatMap walk → f ∈ (xs ++ ns ++ ys).flatMap walk := by
    intro f hf
    simp [hf]
  constructor
  · exact Nat.le_succ_of_le h.le
  · intro f hf
    rcases hmem f hf with rfl | hf
    · have := h.le
      omega
    · exact ⟨(h.bounds f hf).1, Nat.le_succ_of_le (h.bounds f hf).2⟩
  · refine (hperm.pairwise_iff Ne.symm).2 (List.pairwise_cons.2 ⟨fun f hf => ?_, h.distinct⟩)
    rw [hnew]
    exact Nat.ne_of_gt (h.lt_succ f hf)
  · intro f hf g hg
    rcases hmem f hf with rfl | hf
    · rw [hnew]
      exact h.lt_succ g (hmid g hg)
    · exact h.inside f hf g hg
  · have hsame : completed (xs ++ [sequence tag ns] ++ ys) = completed (xs ++ ns ++ ys) := by
      simp only [completed_append, completed_singleton]
      simp [isSequence, children]
    rw [hsame]
    exact h.completion

/-- Nodes may be left out together with their numbers. -/
theorem forget (h : Numbered lo ns hi) : Numbered lo [] hi := nil h.le

end Numbered

end Flow

namespace Emits

variable {e : Emitter} {os : List Outline} {l m : Ledger} {ns : List Flow}

theorem numbered (h : Emits e os l ns m) : Flow.Numbered l.used ns m.used := by
  induction h with
  | nil | unreported => exact .nil (Nat.le_refl _)
  | append _ _ ih ih' => exact ih.append ih'
  | leaf origin leaf l _ =>
    refine Flow.Numbered.wrap ?_ (by cases leaf <;> exact Flow.number_of_next rfl)
    have hchildren (tag : Tag) : (leaf.node tag).children = [] := by cases leaf <;> rfl
    rw [hchildren]
    exact .nil (Nat.le_refl _)
  | join xs ys _ _ _ ih => exact ih.join (Id.number_next ..)
  | gather origin c callee name _ ih | enclose origin c callee name _ _ ih =>
    refine Flow.Numbered.wrap (by cases c <;> exact ih) ?_
    cases c <;> exact Flow.number_of_next rfl
  | adopt origin c callee name _ hf ih =>
    obtain ⟨d, tag, callee, cs, rfl, rfl⟩ := Combinator.eq_node_of_adopt? hf
    exact ih.replace (by cases d <;> rfl) (by cases d <;> rfl) (by cases d <;> rfl)
  | ifElse origin condition _ _ _ ih | guarded origin condition _ _ ih
  | ternary origin condition _ _ _ _ ih | switch origin expression _ _ _ ih
  | loop origin repetition _ _ _ ih =>
    exact Flow.Numbered.wrap (by simpa [Flow.children] using ih) (Flow.number_of_next rfl)
  | idleTernary _ _ _ _ ih | idleSwitch _ _ _ _ ih | idleLoop _ _ _ _ ih => exact ih.forget

end Emits

/-! ## Workflows -/

namespace Workflow

/-- The identifiers of a workflow, those of its references left out. -/
def ids (w : Workflow) : List Id := w.walk.map (·.tag.id) ++ [w.root.id]

/-- A workflow took its numbers after `lo`, the last of them for its root. -/
def Numbered (lo : Nat) (w : Workflow) : Prop :=
  ∃ hi, Flow.Numbered lo w.root.children hi ∧ w.root.id.number = hi + 1

/-- Workflows took their numbers one after the other. -/
inductive NumberedAll : Nat → List Workflow → Nat → Prop
  | nil (used : Nat) : NumberedAll used [] used
  | cons {used after : Nat} {w : Workflow} {ws : List Workflow} :
      w.Numbered used → NumberedAll w.root.id.number ws after → NumberedAll used (w :: ws) after

variable {used after : Nat} {w : Workflow} {ws : List Workflow}

namespace Numbered

theorem root_gt (h : w.Numbered used) : ∀ f ∈ w.walk, f.number < w.root.id.number := by
  obtain ⟨hi, htree, hroot⟩ := h
  rw [hroot]
  exact htree.lt_succ

theorem bounds (h : w.Numbered used) :
    ∀ id ∈ w.ids, used < id.number ∧ id.number ≤ w.root.id.number := by
  intro id hid
  simp only [ids, List.mem_append, List.mem_map, List.mem_singleton] at hid
  rcases hid with ⟨f, hf, rfl⟩ | rfl
  · have hlt := h.root_gt f hf
    obtain ⟨hi, htree, -⟩ := h
    exact ⟨(htree.bounds f hf).1, Nat.le_of_lt hlt⟩
  · obtain ⟨hi, htree, hroot⟩ := h
    have := htree.le
    omega

theorem distinct (h : w.Numbered used) : w.ids.Pairwise (·.number ≠ ·.number) := by
  obtain ⟨hi, htree, -⟩ := id h
  refine List.pairwise_append.2 ⟨List.pairwise_map.2 htree.distinct, by simp, ?_⟩
  intro id hid root hroot
  obtain ⟨f, hf, rfl⟩ := List.mem_map.1 hid
  rw [List.mem_singleton.1 hroot]
  exact Nat.ne_of_lt (h.root_gt f hf)

end Numbered

namespace NumberedAll

theorem le (h : NumberedAll used ws after) : used ≤ after := by
  induction h with
  | nil => exact Nat.le_refl _
  | cons hw _ ih =>
    have := hw.bounds _ (List.mem_append_right _ (List.mem_singleton_self _))
    omega

theorem bounds (h : NumberedAll used ws after) :
    ∀ w ∈ ws, ∀ id ∈ w.ids, used < id.number ∧ id.number ≤ after := by
  induction h with
  | nil => nofun
  | @cons used after w ws hw hws ih =>
    refine List.forall_mem_cons.2 ⟨fun id hid => ?_, fun v hv id hid => ?_⟩
    · exact ⟨(hw.bounds id hid).1, Nat.le_trans (hw.bounds id hid).2 hws.le⟩
    · have hroot := hw.bounds w.root.id (by simp [ids])
      exact ⟨Nat.lt_trans hroot.1 (ih v hv id hid).1, (ih v hv id hid).2⟩

theorem exists_numbered (h : NumberedAll used ws after) : ∀ w ∈ ws, ∃ lo, w.Numbered lo := by
  induction h with
  | nil => nofun
  | cons hw _ ih => exact List.forall_mem_cons.2 ⟨⟨_, hw⟩, ih⟩

theorem later (h : NumberedAll used ws after) :
    ws.Pairwise fun v w => ∀ id ∈ w.ids, v.root.id.number < id.number := by
  induction h with
  | nil => exact .nil
  | cons _ hws ih =>
    exact List.pairwise_cons.2 ⟨fun w hw id hid => (hws.bounds w hw id hid).1, ih⟩

theorem distinct (h : NumberedAll used ws after) :
    (ws.flatMap ids).Pairwise (·.number ≠ ·.number) := by
  induction h with
  | nil => exact .nil
  | cons hw hws ih =>
    refine List.pairwise_append.2 ⟨hw.distinct, ih, fun id hid id' hid' => ?_⟩
    obtain ⟨v, hv, hid'⟩ := List.mem_flatMap.1 hid'
    exact Nat.ne_of_lt (Nat.lt_of_le_of_lt (hw.bounds id hid).2 (hws.bounds v hv id' hid').1)

theorem of_map_bare (h : NumberedAll used (ws.map bare) after) : NumberedAll used ws after := by
  induction ws generalizing used with
  | nil => exact h
  | cons w ws ih =>
    cases h with
    | cons hw hws => exact .cons hw (ih hws)

end NumberedAll

end Workflow

namespace Assembly

theorem numbered_workflow (a : Assembly) (entry : EntryPoint) (callback : Node) (used : Nat) :
    (a.workflow entry callback used).1.Numbered used :=
  ⟨_, (a.emitter.emits_body (a.outline entry callback) { used }).numbered, Id.number_next ..⟩

theorem number_root_workflow (a : Assembly) (entry : EntryPoint) (callback : Node) (used : Nat) :
    (a.workflow entry callback used).1.root.id.number = (a.workflow entry callback used).2 :=
  Id.number_next ..

theorem numberedAll_assemble (a : Assembly) (entries : List EntryPoint) (used : Nat) :
    Workflow.NumberedAll used (a.assemble entries used).1 (a.assemble entries used).2.2 := by
  induction entries generalizing used with
  | nil => exact .nil used
  | cons entry entries ih =>
    cases hb : bodyOf? entry with
    | none => simpa [assemble, hb] using ih used
    | some callback =>
      simp only [assemble, hb]
      refine .cons (a.numbered_workflow entry callback used) ?_
      rw [number_root_workflow]
      exact ih _

end Assembly

/-- Numbers are distinct in a whole analysis and follow the order of completion: those of a node are
above those of its descendants, those of the nodes other than sequences grow along the postorder,
that of the root is above all others of the workflow, and each later workflow starts above it. -/
theorem Analysis.numbers_follow_completion (options : Options) (now : Timestamp) (src : Source)
    (tree : Node) (used : Nat) (h : tree.label.flawed = false) :
    ∃ a after, Analysis.run options now src tree used = .ok (a, after) ∧
      (a.workflows.flatMap Workflow.ids).Pairwise (·.number ≠ ·.number) ∧
      (∀ w ∈ a.workflows, ∀ f ∈ w.walk, ∀ g ∈ f.children.flatMap Flow.walk,
        g.number < f.number) ∧
      (∀ w ∈ a.workflows,
        ((w.root.children.flatMap Flow.postorder).filter (!·.isSequence)).Pairwise
          (·.number < ·.number)) ∧
      (∀ w ∈ a.workflows, ∀ f ∈ w.walk, f.number < w.root.id.number) ∧
      (a.workflows.Pairwise fun v w => ∀ id ∈ w.ids, v.root.id.number < id.number) ∧
      ∀ w ∈ a.workflows, ∀ id ∈ w.ids, used < id.number ∧ id.number ≤ after := by
  have hall := (Assembly.ofFile options now src tree).numberedAll_assemble
    (src.entryPoints tree options) used
  obtain ⟨a, hrun, hbare, -⟩ := Analysis.exists_run_of_not_flawed h
    (rfl : (Assembly.ofFile options now src tree).assemble (src.entryPoints tree options) used = _)
  rw [← hbare] at hall
  have hws := Workflow.NumberedAll.of_map_bare hall
  refine ⟨a, _, hrun, hws.distinct, ?_, ?_, ?_, hws.later, hws.bounds⟩
  · intro w hw
    obtain ⟨lo, hi, htree, -⟩ := hws.exists_numbered w hw
    exact htree.inside
  · intro w hw
    obtain ⟨lo, hi, htree, -⟩ := hws.exists_numbered w hw
    exact htree.completion
  · intro w hw
    obtain ⟨lo, hnumbered⟩ := hws.exists_numbered w hw
    exact hnumbered.root_gt

/-- The conditional in the loop without work takes the number 8 and is left out. -/
theorem Analysis.numbers_follow_completion_head :
    Sample.headTree.label.flawed = false ∧
      ∃ a after, Analysis.run { assumeImported := true } ⟨0, 0, 0⟩ Sample.headSource
          Sample.headTree 7 = .ok (a, after) ∧
        (a.workflows.flatMap Workflow.ids).map Id.number = [12, 11, 9, 10, 13] ∧
        (a.workflows.flatMap Workflow.ids).Pairwise (·.number ≠ ·.number) ∧
        ∀ w ∈ a.workflows, ∀ id ∈ w.ids, 7 < id.number ∧ id.number ≤ after := by
  have hrun : ((Analysis.run { assumeImported := true } ⟨0, 0, 0⟩ Sample.headSource
      Sample.headTree 7).toOption.map fun p => (p.1.workflows.flatMap Workflow.ids).map Id.number) =
      some [12, 11, 9, 10, 13] := by decide +kernel
  obtain ⟨a, after, h, hdistinct, -, -, -, -, hbounds⟩ := Analysis.numbers_follow_completion
    { assumeImported := true } ⟨0, 0, 0⟩ Sample.headSource Sample.headTree 7 rfl
  rw [h] at hrun
  exact ⟨rfl, a, after, h, Option.some.inj hrun, hdistinct, hbounds⟩

end FlowShape
