import FlowShape.Proofs.Emission.Relabeling
import FlowShape.Proofs.Workflow.Production

/-!
# Relabelled workflows

Relabelling carries over from emission to the workflows of a file. References between workflows are
resolved by name, so the workflows that are kept under others are relabelled along with them.
-/

namespace FlowShape

namespace Table

theorem insert_map {α β : Type} (f : α → β) (key : String) (value : α)
    (table : List (String × α)) :
    insert key (f value) (table.map fun p => (p.1, f p.2)) =
      (insert key value table).map fun p => (p.1, f p.2) := by
  induction table with
  | nil => rfl
  | cons p rest ih =>
    simp only [List.map_cons, insert]
    split
    · rfl
    · split
      · rfl
      · rw [ih, List.map_cons]

end Table

namespace Workflow

mutual

/-- A workflow with other labels, also in what it keeps of others. -/
def relabel (ρ : Relabeling) : Workflow → Workflow
  | ⟨root, metadata, references⟩ =>
    ⟨{ root with
        id := ρ.id root.id
        children := root.children.map (Flow.relabel ρ)
        location := root.location.bind ρ.place },
      { metadata with warnings := metadata.warnings.map ρ.warning },
      relabelFields ρ references⟩

def relabelFields (ρ : Relabeling) : List (String × Workflow) → List (String × Workflow)
  | [] => []
  | (name, w) :: rest => (name, w.relabel ρ) :: relabelFields ρ rest

end

variable {ρ : Relabeling}

theorem relabelFields_eq_map (fields : List (String × Workflow)) :
    relabelFields ρ fields = fields.map fun p => (p.1, p.2.relabel ρ) := by
  induction fields with
  | nil => rw [relabelFields]; rfl
  | cons p rest ih => rw [relabelFields, ih, List.map_cons]

@[simp] theorem name_relabel (w : Workflow) : (w.relabel ρ).name = w.name := by
  cases w
  rw [relabel]
  rfl

theorem walk_relabel (w : Workflow) : (w.relabel ρ).walk = w.walk.map (Flow.relabel ρ) := by
  cases w
  simp only [relabel, walk, List.flatMap_map, List.map_flatMap, Flow.walk_relabel]

theorem resolvedRef?_relabel (f : Flow) : resolvedRef? (f.relabel ρ) = resolvedRef? f := by
  cases f with
  | conditional => rw [Flow.relabel_conditional]; rfl
  | workflowRef tag ref =>
    obtain ⟨name, resolved⟩ := ref
    rw [Flow.relabel]
    cases resolved <;> rfl
  | _ => rw [Flow.relabel]; rfl

theorem referenced_relabel (w : Workflow) : (w.relabel ρ).referenced = w.referenced := by
  rw [referenced, walk_relabel, List.filterMap_map]
  simp only [Function.comp_def, resolvedRef?_relabel]
  rfl

theorem bare_relabel (w : Workflow) : (w.relabel ρ).bare = w.bare.relabel ρ := by
  cases w
  simp [bare, relabel, relabelFields]

theorem relabel_references (w : Workflow) (references : List (String × Workflow)) :
    Workflow.relabel ρ { w with references } =
      { w.relabel ρ with references := references.map fun p => (p.1, p.2.relabel ρ) } := by
  cases w
  simp [relabel, relabelFields_eq_map]

theorem find?_relabel (targets : List Workflow) (name : String) :
    (targets.map (relabel ρ)).find? (·.name == name) =
      (targets.find? (·.name == name)).map (relabel ρ) := by
  simp only [List.find?_map, Function.comp_def, name_relabel]

theorem referencesAmong_relabel (targets : List Workflow) (w : Workflow) :
    (w.relabel ρ).referencesAmong (targets.map (relabel ρ)) =
      (w.referencesAmong targets).map fun p => (p.1, p.2.relabel ρ) := by
  simp only [referencesAmong, referenced_relabel, name_relabel, find?_relabel]
  -- what is found in the end is relabelled, for it is so after each name that is looked up
  change List.foldl _ (List.map (fun p : String × Workflow => (p.1, p.2.relabel ρ)) []) _ = _
  refine List.foldl_hom _ fun found name => ?_
  cases targets.find? (·.name == name) with
  | none => rfl
  | some target =>
    have hbare := bare_relabel (ρ := ρ) target
    simp only [bare] at hbare
    simp only [Option.map_some, hbare, Table.insert_map]

theorem resolve_relabel (ws : List Workflow) :
    resolve (ws.map (relabel ρ)) = (resolve ws).map (relabel ρ) := by
  simp only [resolve, List.map_map, Function.comp_def, relabel_references,
    referencesAmong_relabel]

end Workflow

namespace Assembly

/-- `a'` builds what `a` does, with other labels. -/
structure Relabels (a : Assembly) (ρ : Relabeling) (a' : Assembly) : Prop where
  source : a'.source = a.source
  bindings : a'.bindings = a.bindings
  analyzedAt : a'.analyzedAt = a.analyzedAt
  emitter : Emitter.Relabels ρ id a.emitter a'.emitter

namespace Relabels

variable {ρ : Relabeling} {a a' : Assembly} (h : a.Relabels ρ a')

include h

theorem workflowName (entry : EntryPoint) : a'.workflowName entry = a.workflowName entry := by
  simp only [Assembly.workflowName, Assembly.fileName, h.source]

theorem outline (entry : EntryPoint) (callback : Node) :
    a'.outline entry callback = a.outline entry callback := by
  simp only [Assembly.outline, Assembly.context, h.workflowName, h.source, h.bindings]

theorem location (n : Node) : a'.emitter.location n = (a.emitter.location n).bind ρ.place :=
  h.emitter.location n

theorem workflow (entry : EntryPoint) (callback : Node) (used : Nat) :
    a'.workflow entry callback (used + ρ.shift) =
      ((a.workflow entry callback used).1.relabel ρ,
        (a.workflow entry callback used).2 + ρ.shift) := by
  have hbody := h.emitter.body (a.outline entry callback) { used }
  rw [Outline.mapOriginAll_id] at hbody
  rw [show ρ.ledger { used } = { used := used + ρ.shift } from rfl] at hbody
  obtain ⟨children, ledger, hrun⟩ :
      ∃ children ledger, (a.emitter.body (a.outline entry callback)).run { used } =
        (children, ledger) := ⟨_, _, rfl⟩
  rw [hrun] at hbody
  have hid : Id.next (ρ.ledger ledger).used "workflow" = ρ.id (Id.next ledger.used "workflow") :=
    (ρ.id_next ..).symm
  simp only [Assembly.workflow, h.outline, hbody, hrun, h.workflowName, h.source, h.analyzedAt,
    h.location, Workflow.relabel, hid, Workflow.relabelFields]
  exact Prod.ext rfl (Nat.add_right_comm ..)

theorem callbackNotFound (entry : EntryPoint) :
    a'.callbackNotFound entry = ρ.warning (a.callbackNotFound entry) := by
  simp only [Assembly.callbackNotFound, h.workflowName, h.location]
  rfl

theorem assemble (entries : List EntryPoint) (used : Nat) :
    a'.assemble entries (used + ρ.shift) =
      ((a.assemble entries used).1.map (Workflow.relabel ρ),
        (a.assemble entries used).2.1.map ρ.warning,
        (a.assemble entries used).2.2 + ρ.shift) := by
  induction entries generalizing used with
  | nil => rfl
  | cons entry entries ih =>
    cases hb : bodyOf? entry with
    | none => simp only [Assembly.assemble, hb, ih, h.callbackNotFound, List.map_cons]
    | some callback => simp only [Assembly.assemble, hb, h.workflow, ih, List.map_cons]

end Relabels

end Assembly

namespace Analysis

def relabel (ρ : Relabeling) (a : Analysis) : Analysis :=
  ⟨a.filePath, a.workflows.map (Workflow.relabel ρ), a.warnings.map ρ.warning⟩

/-- Two assemblies that differ in labels give analyses that differ in labels. -/
theorem run_relabel {ρ : Relabeling} {options options' : Options} {now now' : Timestamp}
    {src : Source} {tree : Node}
    (h : (Assembly.ofFile options now src tree).Relabels ρ
      (Assembly.ofFile options' now' src tree))
    (hentries : src.entryPoints tree options' = src.entryPoints tree options)
    (hresolve : options'.resolveReferences = options.resolveReferences) (used : Nat) :
    run options' now' src tree (used + ρ.shift) =
      (run options now src tree used).map fun p => (p.1.relabel ρ, p.2 + ρ.shift) := by
  have hassemble := h.assemble (src.entryPoints tree options) used
  simp only [Assembly.ofFile] at hassemble
  simp only [run, hentries, hresolve]
  cases src.checkTree tree with
  | error error => rfl
  | ok _ =>
    simp only [bind, Except.bind, hassemble, Except.map, pure, Except.pure, relabel]
    split
    · rw [Workflow.resolve_relabel]
    · rfl

end Analysis

end FlowShape
