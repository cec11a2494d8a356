import FlowShape.Proofs.Emission.Enclosure
import FlowShape.Proofs.Emission.Retention
import FlowShape.Proofs.Emission.Tally
import FlowShape.Proofs.Workflow.Production

/-!
# Places of flow nodes

The callback of an entry point is a node of the file's tree. What is read in it and then emitted
keeps the order of the text: the leaves of a workflow follow each other in the file and do not
overlap, and each node that has a place encloses those below it.
-/

namespace FlowShape

namespace Node

variable {n c : Node}

theorem mem_children_of_child? {f : Field} (h : n.child? f = some c) : c ∈ n.children :=
  List.mem_of_find?_eq_some h

theorem unwrap_mem_nodes (n : Node) : n.unwrap ∈ n.nodes := by
  induction n using childrenInduction with
  | h n ih =>
    by_cases ht : n.kind.isTransparent
    · cases hc : n.firstPart? with
      | none =>
        rw [unwrap_of_bare hc]
        exact n.self_mem_nodes
      | some c =>
        have hmem := mem_children_of_firstPart? hc
        rw [unwrap_of_firstPart? ht hc]
        exact mem_nodes_of_mem_children hmem (ih c hmem)
    · rw [unwrap_of_not_transparent (by simpa using ht)]
      exact n.self_mem_nodes

theorem mem_nodes_of_mem_callArguments (h : c ∈ n.callArguments) : c ∈ n.nodes := by
  unfold callArguments at h
  split at h
  · next list hl =>
    split at h
    · have hc := mem_nodes_of_mem_children (mem_children_of_mem_parts h) c.self_mem_nodes
      exact mem_nodes_of_mem_children (mem_children_of_child? hl) hc
    · cases h
  · cases h

theorem unwrap_mem_nodes_of_mem_callArguments (h : c ∈ n.callArguments) : c.unwrap ∈ n.nodes :=
  (nodes_sublist_of_mem (mem_nodes_of_mem_callArguments h)).subset c.unwrap_mem_nodes

theorem mem_nodes_of_callbackArgument? (h : n.callbackArgument? = some c) : c ∈ n.nodes := by
  obtain ⟨a, ha, rfl⟩ := List.mem_map.1 (List.mem_of_find?_eq_some h)
  exact unwrap_mem_nodes_of_mem_callArguments ha

end Node

namespace Site

theorem mem_nodes_of_mem_visit {agenda : List Site} {s : Site} (h : s ∈ visit agenda) :
    ∃ t ∈ agenda, s.node ∈ t.node.nodes := by
  fun_induction visit agenda with
  | case1 => cases h
  | case2 t rest ih =>
    rcases List.mem_cons.1 h with rfl | h
    · exact ⟨s, by simp, s.node.self_mem_nodes⟩
    · obtain ⟨u, hu, hs⟩ := ih h
      rcases List.mem_append.1 hu with hu | hu
      · have hpart : u.node ∈ t.node.parts := t.map_node_parts ▸ List.mem_map_of_mem hu
        refine ⟨t, by simp, ?_⟩
        exact Node.mem_nodes_of_mem_children (Node.mem_children_of_mem_parts hpart) hs
      · exact ⟨u, by simp [hu], hs⟩

theorem mem_nodes_of_mem_calls {tree : Node} {s : Site} (h : s ∈ calls tree) :
    s.node ∈ tree.nodes := by
  obtain ⟨t, ht, hs⟩ := mem_nodes_of_mem_visit (List.mem_filter.1 h).1
  rw [List.mem_singleton.1 ht] at hs
  exact hs

end Site

namespace Source

variable {src : Source} {tree : Node}

theorem mem_nodes_of_invocationCallback? {name : String} {c : Node}
    (h : src.invocationCallback? tree name = some c) : c ∈ tree.nodes := by
  obtain ⟨s, hs, hc⟩ := List.exists_of_findSome?_eq_some h
  have hcall := Site.mem_nodes_of_mem_calls (List.mem_filter.1 hs).1
  exact (Node.nodes_sublist_of_mem hcall).subset (Node.mem_nodes_of_callbackArgument? hc)

/-- The callback of an entry point is part of the file. -/
theorem mem_nodes_of_entryPoints {options : Options} {entry : EntryPoint} {c : Node}
    (h : entry ∈ src.entryPoints tree options) (hc : entry.callback = some c) :
    c ∈ tree.nodes := by
  obtain ⟨kind, -, h⟩ := List.mem_flatMap.1 h
  unfold entriesOf at h
  split at h
  · obtain ⟨call, hcall, rfl⟩ := List.mem_map.1 h
    have hmem := Site.mem_nodes_of_mem_calls (List.mem_filter.1 hcall).1
    simp only [definition] at hc
    cases ha : call.node.callbackArgument? with
    | some a =>
      rw [ha] at hc
      cases hc
      exact (Node.nodes_sublist_of_mem hmem).subset (Node.mem_nodes_of_callbackArgument? ha)
    | none =>
      -- the definition is called with its callback elsewhere in the file
      rw [ha] at hc
      obtain ⟨name, -, hc⟩ := Option.bind_eq_some_iff.1 hc
      exact mem_nodes_of_invocationCallback? hc
  · obtain ⟨call, hcall, rfl⟩ := List.mem_map.1 h
    have hmem := Site.mem_nodes_of_mem_calls (List.mem_filter.1 hcall).1
    obtain ⟨a, ha, rfl⟩ := Option.map_eq_some_iff.1 hc
    exact (Node.nodes_sublist_of_mem hmem).subset
      (Node.unwrap_mem_nodes_of_mem_callArguments (List.mem_of_mem_head? ha))

end Source

namespace Assembly

variable (a : Assembly) (entry : EntryPoint) {callback : Node}

theorem inOrder_outline (h : callback.WellArranged) :
    callback.InOrder (Outline.leafOrigins (a.outline entry callback)) := by
  rw [outline, ← Reader.read_callback]
  exact Reader.inOrder_read _ .callback h

theorem nested_outline (h : callback.WellArranged) :
    ∀ o ∈ a.outline entry callback, callback.Encloses o.origin ∧ o.Nested := by
  rw [outline, ← Reader.read_callback]
  exact Reader.nested_read _ .callback h

/-- The leaves of a workflow stand at the places of nodes in document order. -/
theorem leaves_workflow (h : callback.WellArranged) (used : Nat) :
    ∃ origins, callback.InOrder origins ∧
      ((a.workflow entry callback used).1.walk.filter Flow.isLeaf).map (·.tag.location) =
        origins.map a.emitter.location := by
  have hkept := (a.emitter.emits_body (a.outline entry callback) { used }).kept
  have hsublist : (((a.workflow entry callback used).1.walk.filter Flow.isLeaf).map
      (·.tag.location)).Sublist
      ((Outline.leafOrigins (a.outline entry callback)).map a.emitter.location) := by
    have hmarks := hkept.sublist.map (·.1)
    simp only [Flow.leafMarks, Emitter.leafMarks, List.map_map] at hmarks
    rw [Outline.leafOrigins, List.map_map]
    exact hmarks
  obtain ⟨origins, horigins, hplaces⟩ := List.sublist_map_iff.1 hsublist
  have hinOrder := a.inOrder_outline entry h
  exact ⟨origins, ⟨horigins.trans hinOrder.sublist, hinOrder.disjoint.sublist horigins⟩, hplaces⟩

theorem placed_workflow (h : callback.WellArranged) (hlocations : a.options.includeLocations)
    (used : Nat) :
    ∀ f ∈ (a.workflow entry callback used).1.root.children, f.Placed a.source callback :=
  (a.emitter.emits_body (a.outline entry callback) { used }).placed hlocations
    (fun o ho => (a.nested_outline entry h o ho).1) fun o ho => (a.nested_outline entry h o ho).2

end Assembly

/-- The leaves of a workflow come from separate places of the file in document order, and the place
of each node encloses those of the nodes below it. -/
theorem Analysis.places_follow_source (options : Options) (now : Timestamp) (src : Source)
    (tree : Node) (used : Nat) (h : tree.label.flawed = false) (harranged : tree.WellArranged)
    (hlocations : options.includeLocations) :
    ∃ a after, Analysis.run options now src tree used = .ok (a, after) ∧
      ∀ w ∈ a.allWorkflows,
        (∃ origins : List Node, origins.Sublist tree.nodes ∧
          origins.Pairwise (·.stop ≤ ·.start) ∧
          (w.walk.filter Flow.isLeaf).map (·.tag.location) =
            origins.map fun n => some (src.location n)) ∧
        ∀ f ∈ w.walk, ∀ g ∈ f.walk, ∀ outer inner, f.tag.location = some outer →
          g.tag.location = some inner → outer.Encloses inner := by
  refine Analysis.exists_run_forall h (fun w hw => hw) ?_
  intro entry hentry callback before hbody
  have hmem : callback ∈ tree.nodes :=
    Source.mem_nodes_of_entryPoints hentry (Option.filter_eq_some_iff.1 hbody).1
  have hcallback := harranged.of_mem hmem
  constructor
  · obtain ⟨origins, ⟨hsublist, hdisjoint⟩, hplaces⟩ :=
      (Assembly.ofFile options now src tree).leaves_workflow entry hcallback before
    refine ⟨origins, hsublist.trans (Node.nodes_sublist_of_mem hmem), hdisjoint, ?_⟩
    rw [hplaces]
    refine List.map_congr_left fun n _ => ?_
    exact if_pos hlocations
  · intro f hf g hg outer inner houter hinner
    obtain ⟨c, hc, hf⟩ := List.mem_flatMap.1 hf
    have hplaced := (Assembly.ofFile options now src tree).placed_workflow entry hcallback
      hlocations before c hc
    exact hplaced.encloses hf hg houter hinner

theorem Analysis.places_follow_source_head :
    Sample.headTree.label.flawed = false ∧ Sample.headTree.WellArranged ∧
      ∃ a after w, ∃ origins : List Node,
        Analysis.run { assumeImported := true } ⟨0, 0, 0⟩ Sample.headSource Sample.headTree 0 =
          .ok (a, after) ∧ w ∈ a.allWorkflows ∧
        origins.Sublist Sample.headTree.nodes ∧ origins.Pairwise (·.stop ≤ ·.start) ∧
        (w.walk.filter Flow.isLeaf).map (·.tag.location) =
          origins.map (fun n => some (Sample.headSource.location n)) ∧
        (w.walk.filter Flow.isLeaf).map (·.tag.location) =
          [some ⟨"sample.ts", 3, 17, some 3, some 24⟩,
            some ⟨"sample.ts", 3, 26, some 3, some 33⟩] ∧
        ∀ f ∈ w.walk, ∀ g ∈ f.walk, ∀ outer inner, f.tag.location = some outer →
          g.tag.location = some inner → outer.Encloses inner := by
  have hrun : ((Analysis.run { assumeImported := true } ⟨0, 0, 0⟩ Sample.headSource
      Sample.headTree 0).toOption.map fun p => p.1.allWorkflows.map fun w =>
        (w.walk.filter Flow.isLeaf).map (·.tag.location)) =
      some [[some ⟨"sample.ts", 3, 17, some 3, some 24⟩,
        some ⟨"sample.ts", 3, 26, some 3, some 33⟩]] := by
    decide +kernel
  have harranged : Sample.headTree.WellArranged := by decide +kernel
  obtain ⟨a, after, h, hall⟩ := Analysis.places_follow_source { assumeImported := true } ⟨0, 0, 0⟩
    Sample.headSource Sample.headTree 0 rfl harranged rfl
  rw [h] at hrun
  obtain ⟨w, ws, hw, hleaves, -⟩ := List.map_eq_cons_iff.1 (Option.some.inj hrun)
  have hmem : w ∈ a.allWorkflows := by simp [hw]
  obtain ⟨⟨origins, hsublist, hdisjoint, hplaces⟩, hencloses⟩ := hall w hmem
  exact ⟨rfl, harranged, a, after, w, origins, h, hmem, hsublist, hdisjoint, hplaces, hleaves,
    hencloses⟩

end FlowShape
