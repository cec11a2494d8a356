import FlowShape.Proofs.Emission.Derivation
import FlowShape.Proofs.Reading.Order

/-!
# Ranges of emitted nodes

A node takes the place of the syntax from which its outline was read, and a sequence has no place.
So ranges that enclose each other in an outline do so among the nodes that are emitted, also where a
node stands for the call around it.
-/

namespace FlowShape

namespace Flow

/-- The places of a node and of all below it lie in the range of `outer`, and each in the range of
the nearest node above that has a place. -/
inductive Placed (src : Source) : Node → Flow → Prop
  | located {outer n : Node} {f : Flow} : outer.Encloses n →
      f.tag.location = some (src.location n) → (∀ c ∈ f.children, c.Placed src n) →
      f.Placed src outer
  | unlocated {outer : Node} {f : Flow} : f.tag.location = none →
      (∀ c ∈ f.children, c.Placed src outer) → f.Placed src outer

namespace Placed

variable {src : Source} {outer n : Node} {f g : Flow}

theorem mono (h : f.Placed src n) (ho : outer.Encloses n) : f.Placed src outer := by
  induction h with
  | located hn hlocation hchildren _ => exact .located (ho.trans hn) hlocation hchildren
  | unlocated hlocation _ ih => exact .unlocated hlocation fun c hc => ih c hc ho

/-- Only its place and its children matter about a node. -/
theorem replace (h : f.Placed src outer) (hlocation : g.tag.location = f.tag.location)
    (hchildren : g.children = f.children) : g.Placed src outer := by
  cases h with
  | located hn hf hcs => exact .located hn (hlocation.trans hf) (hchildren ▸ hcs)
  | unlocated hf hcs => exact .unlocated (hlocation.trans hf) (hchildren ▸ hcs)

theorem within (h : f.Placed src outer) {loc : Location} (hg : g ∈ f.walk)
    (hloc : g.tag.location = some loc) : ∃ n, outer.Encloses n ∧ loc = src.location n := by
  induction h with
  | @located outer n f hn hlocation _ ih =>
    rw [walk_eq] at hg
    rcases List.mem_cons.1 hg with rfl | hg
    · exact ⟨n, hn, Option.some.inj (hloc.symm.trans hlocation)⟩
    · obtain ⟨c, hc, hg⟩ := List.mem_flatMap.1 hg
      obtain ⟨d, hd, hloc⟩ := ih c hc hg
      exact ⟨d, hn.trans hd, hloc⟩
  | unlocated hlocation _ ih =>
    rw [walk_eq] at hg
    rcases List.mem_cons.1 hg with rfl | hg
    · rw [hlocation] at hloc
      cases hloc
    · obtain ⟨c, hc, hg⟩ := List.mem_flatMap.1 hg
      exact ih c hc hg

/-- Each place encloses those of the nodes below. -/
theorem encloses (h : f.Placed src outer) {k : Flow} {loc loc' : Location} (hg : g ∈ f.walk)
    (hk : k ∈ g.walk) (hloc : g.tag.location = some loc) (hloc' : k.tag.location = some loc') :
    loc.Encloses loc' := by
  induction h with
  | @located outer n f hn hlocation hchildren ih =>
    rw [walk_eq] at hg
    rcases List.mem_cons.1 hg with rfl | hg
    · have hloc : loc = src.location n := Option.some.inj (hloc.symm.trans hlocation)
      obtain ⟨d, hd, rfl⟩ := (Placed.located (.refl n) hlocation hchildren).within hk hloc'
      rw [hloc]
      exact src.location_encloses hd
    · obtain ⟨c, hc, hg⟩ := List.mem_flatMap.1 hg
      exact ih c hc hg
  | unlocated hlocation _ ih =>
    rw [walk_eq] at hg
    rcases List.mem_cons.1 hg with rfl | hg
    · rw [hlocation] at hloc
      cases hloc
    · obtain ⟨c, hc, hg⟩ := List.mem_flatMap.1 hg
      exact ih c hc hg

end Placed

end Flow

namespace Emits

variable {e : Emitter} {os : List Outline} {l m : Ledger} {ns : List Flow} {outer : Node}

/-- A node takes the place of its outline, and its children lie inside. -/
theorem placed_singleton {o : Outline} {f : Flow} (hlocations : e.includeLocations)
    (hos : ∀ p ∈ [o], outer.Encloses p.origin) (hnested : ∀ p ∈ [o], p.Nested)
    (htag : f.tag.location = e.location o.origin)
    (ih : (∀ p ∈ o.inside, o.origin.Encloses p.origin) → (∀ p ∈ o.inside, p.Nested) →
      ∀ c ∈ f.children, c.Placed e.source o.origin) : ∀ g ∈ [f], g.Placed e.source outer := by
  intro g hg
  rw [List.mem_singleton.1 hg]
  rcases hnested o (List.mem_singleton_self o) with ⟨_, hencloses, hinside⟩
  refine .located (hos o (List.mem_singleton_self o)) ?_ (ih hencloses hinside)
  rw [htag, Emitter.location, if_pos hlocations]

theorem placed (h : Emits e os l ns m) (hlocations : e.includeLocations)
    (hos : ∀ o ∈ os, outer.Encloses o.origin) (hnested : ∀ o ∈ os, o.Nested) :
    ∀ f ∈ ns, f.Placed e.source outer := by
  induction h generalizing outer with
  | nil | unreported | idleTernary | idleSwitch | idleLoop =>
    intro f hf
    cases hf
  | append _ _ ih ih' =>
    obtain ⟨hos, hps⟩ := List.forall_mem_append.1 hos
    obtain ⟨hnested, hnested'⟩ := List.forall_mem_append.1 hnested
    exact List.forall_mem_append.2 ⟨ih hos hnested, ih' hps hnested'⟩
  | leaf origin leaf l _ =>
    refine placed_singleton hlocations hos hnested (by cases leaf <;> rfl) fun _ _ c hc => ?_
    cases leaf <;> cases hc
  | join xs ys _ _ _ ih =>
    obtain ⟨hxs, hys⟩ := List.forall_mem_append.1 (ih hos hnested)
    obtain ⟨hxs, hns⟩ := List.forall_mem_append.1 hxs
    refine List.forall_mem_append.2 ⟨List.forall_mem_append.2 ⟨hxs, ?_⟩, hys⟩
    intro f hf
    rw [List.mem_singleton.1 hf]
    exact .unlocated rfl hns
  | gather origin c callee name _ ih | enclose origin c callee name _ _ ih =>
    refine placed_singleton hlocations hos hnested (by cases c <;> rfl) fun hin hin' => ?_
    cases c <;> exact ih hin hin'
  | adopt origin c callee name _ hf ih =>
    obtain ⟨d, tag, callee, cs, rfl, rfl⟩ := Combinator.eq_node_of_adopt? hf
    intro f hf
    rw [List.mem_singleton.1 hf]
    rcases hnested _ (List.mem_singleton_self _) with ⟨_, hencloses, hinside⟩
    have hinner := ih hencloses hinside _ (List.mem_singleton_self _)
    refine (hinner.mono (hos _ (List.mem_singleton_self _))).replace ?_ ?_ <;> cases d <;> rfl
  | ifElse origin condition _ _ _ ih | guarded origin condition _ _ ih
  | ternary origin condition _ _ _ _ ih | switch origin expression _ _ _ ih
  | loop origin repetition _ _ _ ih =>
    refine placed_singleton hlocations hos hnested rfl fun hin hin' => ?_
    simpa [Flow.children] using ih hin hin'

end Emits

end FlowShape
