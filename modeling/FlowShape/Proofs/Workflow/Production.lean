import FlowShape.Analysis

/-!
# Where the workflows of an analysis come from

A tree without flaws is always analysed. Each workflow of the analysis, also a copy kept under the
references of another, is built from an entry point of the file whose body is a function literal;
resolving references changes nothing else.
-/

namespace FlowShape

namespace Table

theorem mem_of_mem_insert {α : Type} {key : String} {value : α} {table : List (String × α)}
    {p : String × α} (h : p ∈ insert key value table) : p = (key, value) ∨ p ∈ table := by
  induction table with
  | nil => simpa [insert] using h
  | cons q rest ih =>
    unfold insert at h
    split at h
    · simpa using h
    · split at h
      · rcases List.mem_cons.1 h with rfl | h
        · exact .inl rfl
        · exact .inr (by simp [h])
      · rcases List.mem_cons.1 h with rfl | h
        · exact .inr (by simp)
        · rcases ih h with h | h
          · exact .inl h
          · exact .inr (by simp [h])

end Table

namespace Workflow

/-- A workflow without what it keeps of others. -/
def bare (w : Workflow) : Workflow := { w with references := [] }

@[simp] theorem bare_bare (w : Workflow) : w.bare.bare = w.bare := rfl

theorem map_bare_resolve (ws : List Workflow) : (resolve ws).map bare = ws.map bare := by
  simp only [resolve, List.map_map]
  rfl

theorem mem_of_mem_referencesAmong {targets : List Workflow} {w : Workflow} {p : String × Workflow}
    (h : p ∈ w.referencesAmong targets) : ∃ target ∈ targets, p.2 = target.bare := by
  -- the induction is on the names looked up so far
  refine List.foldlRecOn (motive := fun found => ∀ q ∈ found, ∃ target ∈ targets,
    q.2 = target.bare) _ _ (by simp) ?_ p h
  intro found ih name _ q hq
  split at hq
  · next target ht =>
    rcases Table.mem_of_mem_insert hq with rfl | hq
    · exact ⟨target, List.mem_of_find?_eq_some ht, rfl⟩
    · exact ih q hq
  · exact ih q hq

end Workflow

/-- Whether an entry point has a function literal for its body. -/
def EntryPoint.hasBody (entry : EntryPoint) : Bool := (Assembly.bodyOf? entry).isSome

namespace Assembly

/-- What the entry points of one file share. -/
def ofFile (options : Options) (now : Timestamp) (src : Source) (tree : Node) : Assembly :=
  ⟨src, options, src.fileBindings tree options, options.analyzedAt.getD now⟩

variable {a : Assembly} {entries : List EntryPoint} {used : Nat}

theorem assemble_cons_of_none {entry : EntryPoint} (h : bodyOf? entry = none) :
    (a.assemble (entry :: entries) used).1 = (a.assemble entries used).1 := by
  simp [assemble, h]

theorem assemble_cons_of_some {entry : EntryPoint} {callback : Node}
    (h : bodyOf? entry = some callback) :
    (a.assemble (entry :: entries) used).1 =
      (a.workflow entry callback used).1 ::
        (a.assemble entries (a.workflow entry callback used).2).1 := by
  simp [assemble, h]

/-- Each workflow is the one of an entry point with a body. -/
theorem exists_of_mem_assemble {w : Workflow} (h : w ∈ (a.assemble entries used).1) :
    ∃ entry ∈ entries, ∃ callback before, bodyOf? entry = some callback ∧
      w = (a.workflow entry callback before).1 := by
  induction entries generalizing used with
  | nil => cases h
  | cons entry entries ih =>
    cases hb : bodyOf? entry with
    | none =>
      rw [assemble_cons_of_none hb] at h
      obtain ⟨entry', hmem, rest⟩ := ih h
      exact ⟨entry', by simp [hmem], rest⟩
    | some callback =>
      rw [assemble_cons_of_some hb] at h
      rcases List.mem_cons.1 h with rfl | h
      · exact ⟨entry, by simp, callback, used, hb, rfl⟩
      · obtain ⟨entry', hmem, rest⟩ := ih h
        exact ⟨entry', by simp [hmem], rest⟩

/-- The warnings of a file are those of the entry points without a body. -/
theorem warnings_assemble_eq (a : Assembly) (entries : List EntryPoint) (used : Nat) :
    (a.assemble entries used).2.1 =
      (entries.filter (!·.hasBody)).map a.callbackNotFound := by
  induction entries generalizing used with
  | nil => rfl
  | cons entry entries ih =>
    cases hb : bodyOf? entry with
    | none => simp [assemble, EntryPoint.hasBody, hb, ih]
    | some callback => simp [assemble, EntryPoint.hasBody, hb, ih]

theorem exists_of_mem_warnings {x : Warning} (h : x ∈ (a.assemble entries used).2.1) :
    ∃ entry ∈ entries, bodyOf? entry = none ∧ x = a.callbackNotFound entry := by
  rw [warnings_assemble_eq] at h
  obtain ⟨entry, hentry, rfl⟩ := List.mem_map.1 h
  obtain ⟨hmem, hbody⟩ := List.mem_filter.1 hentry
  exact ⟨entry, hmem, by simpa [EntryPoint.hasBody] using hbody, rfl⟩

/-- Workflows keep nothing of others as long as references are not resolved. -/
theorem bare_of_mem_assemble {w : Workflow} (h : w ∈ (a.assemble entries used).1) :
    w.bare = w := by
  obtain ⟨entry, -, callback, before, -, rfl⟩ := exists_of_mem_assemble h
  rfl

theorem bare_of_assemble_eq {ws : List Workflow} {warnings : List Warning} {after : Nat}
    (hp : a.assemble entries used = (ws, warnings, after)) : ∀ w ∈ ws, w.bare = w := by
  intro w hw
  have hmem : w ∈ (a.assemble entries used).1 := by rwa [hp]
  exact bare_of_mem_assemble hmem

theorem map_bare_of_assemble_eq {ws : List Workflow} {warnings : List Warning} {after : Nat}
    (hp : a.assemble entries used = (ws, warnings, after)) : ws.map Workflow.bare = ws := by
  simpa using List.map_congr_left (bare_of_assemble_eq hp)

end Assembly

namespace Analysis

/-- The workflows of an analysis and the copies kept under their references. -/
def allWorkflows (a : Analysis) : List Workflow :=
  a.workflows ++ a.workflows.flatMap (·.references.map (·.2))

variable {options : Options} {now : Timestamp} {src : Source} {tree : Node} {used after : Nat}
  {ws : List Workflow} {warnings : List Warning}

theorem run_of_not_flawed (h : tree.label.flawed = false)
    (hp : (Assembly.ofFile options now src tree).assemble (src.entryPoints tree options) used =
      (ws, warnings, after)) :
    run options now src tree used =
      .ok (⟨src.path, if options.resolveReferences then Workflow.resolve ws else ws, warnings⟩,
        after) := by
  have hcheck : src.checkTree tree = .ok () := by simp [Source.checkTree, h]
  rw [Assembly.ofFile] at hp
  rw [run, hcheck]
  simp only [bind, Except.bind, hp]
  rfl

/-- Up to references, the workflows of an analysis are those assembled. -/
theorem map_bare_workflows {a : Assembly} {entries : List EntryPoint} (options : Options)
    (hp : a.assemble entries used = (ws, warnings, after)) :
    (if options.resolveReferences then Workflow.resolve ws else ws).map Workflow.bare = ws := by
  split
  · rw [Workflow.map_bare_resolve, Assembly.map_bare_of_assemble_eq hp]
  · exact Assembly.map_bare_of_assemble_eq hp

/-- A tree without flaws is analysed. Up to references, its workflows are those assembled from the
entry points of the file. -/
theorem exists_run_of_not_flawed (h : tree.label.flawed = false)
    (hp : (Assembly.ofFile options now src tree).assemble (src.entryPoints tree options) used =
      (ws, warnings, after)) :
    ∃ a : Analysis, run options now src tree used = .ok (a, after) ∧
      a.workflows.map Workflow.bare = ws ∧ ∀ w ∈ a.allWorkflows, w.bare ∈ ws := by
  have hbare := Assembly.bare_of_assemble_eq hp
  have hmap := map_bare_workflows options hp
  refine ⟨_, run_of_not_flawed h hp, hmap, ?_⟩
  intro w hw
  simp only [allWorkflows, List.mem_append, List.mem_flatMap] at hw
  rcases hw with hw | ⟨v, hv, hw⟩
  · rw [← hmap]
    exact List.mem_map_of_mem hw
  · obtain ⟨p, hr, rfl⟩ := List.mem_map.1 hw
    split at hv
    · obtain ⟨u, -, rfl⟩ := List.mem_map.1 hv
      obtain ⟨target, ht, hr⟩ := Workflow.mem_of_mem_referencesAmong hr
      rwa [hr, Workflow.bare_bare, hbare target ht]
    · rw [← hbare v hv] at hr
      cases hr

/-- What holds of the workflow of each entry point, whatever it keeps of others, holds of all
workflows of the analysis. -/
theorem exists_run_forall {P : Workflow → Prop} (h : tree.label.flawed = false)
    (hbare : ∀ w : Workflow, P w.bare → P w)
    (hP : ∀ entry ∈ src.entryPoints tree options, ∀ callback before,
      Assembly.bodyOf? entry = some callback →
        P ((Assembly.ofFile options now src tree).workflow entry callback before).1) :
    ∃ a after, run options now src tree used = .ok (a, after) ∧ ∀ w ∈ a.allWorkflows, P w := by
  obtain ⟨a, hrun, -, hall⟩ := exists_run_of_not_flawed h rfl
  refine ⟨a, _, hrun, fun w hw => hbare w ?_⟩
  obtain ⟨entry, hentry, callback, before, hbody, hw⟩ :=
    Assembly.exists_of_mem_assemble (hall w hw)
  rw [hw]
  exact hP entry hentry callback before hbody

end Analysis

end FlowShape
