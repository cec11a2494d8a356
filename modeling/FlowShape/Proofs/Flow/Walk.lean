import FlowShape.Flow.Basic

/-!
# Walks through flow nodes

`walk` lists parents first and `postorder` lists them last; both go through the children in the same
order. Work is what a walk meets: a body has work if its walk meets a node that stands for it.
-/

namespace FlowShape

namespace Flow

@[simp] theorem walk_sequence (tag : Tag) (cs : List Flow) :
    (sequence tag cs).walk = sequence tag cs :: cs.flatMap walk := walk_eq _

@[simp] theorem walk_conditional (tag : Tag) (condition : Condition) (cs : List Flow)
    (as : Option (List Flow)) :
    (conditional tag condition cs as).walk =
      conditional tag condition cs as :: (cs ++ as.getD []).flatMap walk := walk_eq _

@[simp] theorem walk_switch (tag : Tag) (expression : String) (cases : List (Case Flow)) :
    (switch tag expression cases).walk =
      switch tag expression cases :: (cases.flatMap Case.body).flatMap walk := walk_eq _

@[simp] theorem walk_loop (tag : Tag) (repetition : Repetition) (cs : List Flow) :
    (loop tag repetition cs).walk = loop tag repetition cs :: cs.flatMap walk := walk_eq _

theorem flatMap_walk_join (tag : Tag) (xs ns ys : List Flow) :
    ((xs ++ [sequence tag ns] ++ ys).flatMap walk).Perm
      (sequence tag ns :: (xs ++ ns ++ ys).flatMap walk) := by
  simp

/-! ## Induction -/

mutual

/-- A property that each node has when its children have it is one of all nodes. -/
theorem childrenInduction {P : Flow → Prop} (h : ∀ f : Flow, (∀ c ∈ f.children, P c) → P f) :
    ∀ f : Flow, P f
  | sequence _ cs => h _ (childrenInductionAll h cs)
  | parallel _ _ _ cs => h _ (childrenInductionAll h cs)
  | race _ _ cs => h _ (childrenInductionAll h cs)
  | loop _ _ cs => h _ (childrenInductionAll h cs)
  | conditional _ _ cs none => h _ (by simpa [children] using childrenInductionAll h cs)
  | conditional _ _ cs (some as) =>
    h _ (List.forall_mem_append.2 ⟨childrenInductionAll h cs, childrenInductionAll h as⟩)
  | switch _ _ cases => h _ (childrenInductionCases h cases)
  | step .. | sagaStep .. | stream .. | workflowRef .. | unknown .. => h _ nofun

theorem childrenInductionAll {P : Flow → Prop} (h : ∀ f : Flow, (∀ c ∈ f.children, P c) → P f) :
    ∀ fs : List Flow, ∀ c ∈ fs, P c
  | [] => nofun
  | f :: fs => List.forall_mem_cons.2 ⟨childrenInduction h f, childrenInductionAll h fs⟩

theorem childrenInductionCases {P : Flow → Prop}
    (h : ∀ f : Flow, (∀ c ∈ f.children, P c) → P f) :
    ∀ cases : List (Case Flow), ∀ c ∈ cases.flatMap Case.body, P c
  | [] => nofun
  | ⟨_, _, body⟩ :: cases =>
    List.forall_mem_append.2 ⟨childrenInductionAll h body, childrenInductionCases h cases⟩

end

/-- Walks go on through what they meet. -/
theorem walk_subset_walk {f g : Flow} (h : f ∈ g.walk) : f.walk ⊆ g.walk := by
  induction g using childrenInduction with
  | h g ih =>
    rw [walk_eq] at h
    rcases List.mem_cons.1 h with rfl | h
    · exact List.Subset.refl _
    · obtain ⟨c, hc, hf⟩ := List.mem_flatMap.1 h
      rw [walk_eq g]
      exact fun x hx => List.mem_cons_of_mem _ (List.mem_flatMap.2 ⟨c, hc, ih c hc hf hx⟩)

theorem walk_subset_flatMap_walk {f : Flow} {ns : List Flow} (h : f ∈ ns.flatMap walk) :
    f.walk ⊆ ns.flatMap walk := by
  obtain ⟨g, hg, hf⟩ := List.mem_flatMap.1 h
  exact fun x hx => List.mem_flatMap.2 ⟨g, hg, walk_subset_walk hf hx⟩

/-! ## Work -/

theorem hasWork_eq_any_walk (ns : List Flow) : hasWork ns = (ns.flatMap walk).any isCallShape := by
  simp only [hasWork, List.any_flatMap]
  rfl

@[simp] theorem hasWork_append (ns ms : List Flow) :
    hasWork (ns ++ ms) = (hasWork ns || hasWork ms) :=
  List.any_append

theorem hasWork_flatMap_body (cases : List (Case Flow)) :
    hasWork (cases.flatMap Case.body) = cases.any fun c => hasWork c.body :=
  List.any_flatMap

theorem containsCallShape_of_hasWork {f : Flow} (h : hasWork f.children) :
    f.containsCallShape := by
  rw [hasWork_eq_any_walk] at h
  rw [containsCallShape, walk_eq, List.any_cons, h, Bool.or_true]

theorem hasWork_sequence (tag : Tag) (ns : List Flow) :
    hasWork [sequence tag ns] = hasWork ns := by
  simp [hasWork_eq_any_walk, isCallShape]

/-! ## Postorder -/

mutual

/-- A node after all nodes below it. -/
def postorder : Flow → List Flow
  | sequence tag cs => postorderAll cs ++ [sequence tag cs]
  | parallel tag mode callee cs => postorderAll cs ++ [parallel tag mode callee cs]
  | race tag callee cs => postorderAll cs ++ [race tag callee cs]
  | conditional tag condition cs none => postorderAll cs ++ [conditional tag condition cs none]
  | conditional tag condition cs (some as) =>
    postorderAll cs ++ postorderAll as ++ [conditional tag condition cs (some as)]
  | switch tag expression cases => postorderCases cases ++ [switch tag expression cases]
  | loop tag repetition cs => postorderAll cs ++ [loop tag repetition cs]
  | leaf => [leaf]

def postorderAll : List Flow → List Flow
  | [] => []
  | f :: fs => f.postorder ++ postorderAll fs

def postorderCases : List (Case Flow) → List Flow
  | [] => []
  | ⟨_, _, body⟩ :: cases => postorderAll body ++ postorderCases cases

end

theorem postorderAll_eq_flatMap (fs : List Flow) : postorderAll fs = fs.flatMap postorder := by
  induction fs with
  | nil => simp [postorderAll]
  | cons f fs ih => simp [postorderAll, ih]

theorem postorderCases_eq_flatMap (cases : List (Case Flow)) :
    postorderCases cases = (cases.flatMap Case.body).flatMap postorder := by
  induction cases with
  | nil => simp [postorderCases]
  | cons c cs ih => simp [postorderCases, postorderAll_eq_flatMap, ih]

theorem postorder_eq (f : Flow) : f.postorder = f.children.flatMap postorder ++ [f] := by
  cases f with
  | conditional tag condition consequent alternate =>
    cases alternate <;> simp [postorder, children, postorderAll_eq_flatMap]
  | _ => simp [postorder, children, postorderAll_eq_flatMap, postorderCases_eq_flatMap]

end Flow

end FlowShape
