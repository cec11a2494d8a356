import FlowShape.Proofs.Emission.Derivation
import FlowShape.Proofs.Outline.Inside

/-!
# What a node was emitted for

Each emitted node is a sequence that joins several others, or it renders one of the outlines. The
rules of `Renders` tell all that a node takes from its outline and what emission checks before the
node is there, so that a property of single nodes follows from one of single outlines.
-/

namespace FlowShape

namespace Flow

/-- A sequence as joining makes it: of several nodes, none of which is a sequence. -/
def Joined (f : Flow) : Prop :=
  ∃ id cs, f = .sequence { id } cs ∧ 1 < cs.length ∧ ∀ c ∈ cs, !c.isSequence

end Flow

@[simp] theorem Combinator.tag_node (c : Combinator) (tag : Tag) (callee : String)
    (ns : List Flow) : (c.node tag callee ns).tag = tag := by
  cases c <;> rfl

/-- How a node renders an outline. Combinators may take their name from a call around them. -/
inductive Emitter.Renders (e : Emitter) : Outline → Flow → Prop
  | leaf (origin : Node) (leaf : Leaf) (l : Ledger) :
      e.Renders (.leaf origin leaf) (leaf.node (e.tagAt l leaf.stem origin leaf.name leaf.key))
  | gather {origin : Node} {c : Combinator} {callee : String} {name : Option String}
      {branches : List (List Outline)} {tag : Tag} {ns : List Flow} :
      tag.location = e.location origin →
      e.Renders (.gather origin c callee name branches) (c.node tag callee ns)
  | enclose {origin : Node} {c : Combinator} {callee : String} {name : Option String}
      {body : List Outline} {tag : Tag} {ns : List Flow} :
      tag.location = e.location origin →
      e.Renders (.enclose origin c callee name body) (c.node tag callee ns)
  | ifElse {origin : Node} {condition : String} {os : List Outline} {ps : Option (List Outline)}
      {l : Ledger} {cs : List Flow} {as : Option (List Flow)} :
      cs.length ≤ 1 → (∀ ns ∈ as, ns.length ≤ 1) →
      e.Renders (.ifElse origin condition os ps)
        (.conditional (e.tagAt l "conditional" origin none none) { text := condition } cs as)
  | ternary {origin : Node} {condition : String} {os ps : List Outline} {l : Ledger}
      {cs as : List Flow} :
      Flow.hasWork cs || Flow.hasWork as → cs.length ≤ 1 → as.length ≤ 1 →
      e.Renders (.ternary origin condition os ps)
        (.conditional (e.tagAt l "conditional" origin none none) { text := condition } cs (some as))
  | guarded {origin : Node} {condition : Condition} {os : List Outline} {l : Ledger}
      {cs : List Flow} :
      cs.length ≤ 1 →
      e.Renders (.guarded origin condition os)
        (.conditional (e.tagAt l "conditional" origin none none) condition cs none)
  | switch {origin : Node} {expression : String} {cases : List (Case Outline)} {l : Ledger}
      {cs : List (Case Flow)} :
      (cs.any fun c => Flow.hasWork c.body) → (∀ c ∈ cs, c.body.length ≤ 1) →
      e.Renders (.switch origin expression cases)
        (.switch (e.tagAt l "switch" origin none none) expression cs)
  | loop {origin : Node} {repetition : Repetition} {os : List Outline} {l : Ledger}
      {ns : List Flow} :
      Flow.hasWork ns → ns.length ≤ 1 →
      e.Renders (.loop origin repetition os)
        (.loop (e.tagAt l "loop" origin none none) repetition ns)

namespace Emitter

variable {e : Emitter}

/-- A node stands at the place of its outline. -/
theorem Renders.location {o : Outline} {f : Flow} (h : e.Renders o f) :
    f.tag.location = e.location o.origin := by
  cases h with
  | leaf origin leaf l => cases leaf <;> rfl
  | gather h | enclose h => rwa [Combinator.tag_node]
  | _ => rfl

/-- A name given to a combinator from outside does not matter. -/
theorem Renders.rename {o : Outline} {c : Combinator} {tag : Tag} {callee : String}
    {ns : List Flow} (h : e.Renders o (c.node tag callee ns)) (name : Option String) :
    e.Renders o (c.node { tag with name } callee ns) := by
  generalize hf : c.node tag callee ns = f at h
  cases h with
  | leaf origin leaf l => cases c <;> cases leaf <;> cases hf
  | @gather origin d _ _ _ tag' _ htag =>
    cases c <;> cases d <;> cases hf <;> exact .gather htag
  | @enclose origin d _ _ _ tag' _ htag =>
    cases c <;> cases d <;> cases hf <;> exact .enclose htag
  | _ => cases c <;> cases hf

/-- Each of the nodes, at any depth, joins others or renders an outline of the list. -/
def RendersAll (e : Emitter) (os : List Outline) (ns : List Flow) : Prop :=
  ∀ f ∈ ns.flatMap Flow.walk, f.Joined ∨ ∃ o ∈ os, ∃ p, o.Has p ∧ e.Renders p f

namespace RendersAll

variable {os ps : List Outline} {ns ms : List Flow} {o : Outline} {f : Flow}

theorem append (h : e.RendersAll os ns) (h' : e.RendersAll ps ms) :
    e.RendersAll (os ++ ps) (ns ++ ms) := by
  intro f hf
  rw [List.flatMap_append, List.mem_append] at hf
  rcases hf with hf | hf
  · refine (h f hf).imp_right ?_
    rintro ⟨o, ho, hp⟩
    exact ⟨o, List.mem_append_left _ ho, hp⟩
  · refine (h' f hf).imp_right ?_
    rintro ⟨o, ho, hp⟩
    exact ⟨o, List.mem_append_right _ ho, hp⟩

/-- What is found inside an outline is found in it. -/
theorem of_inside (h : e.RendersAll o.inside ns) : e.RendersAll [o] ns := by
  intro f hf
  refine (h f hf).imp_right ?_
  rintro ⟨p, hp, q, hq, hf⟩
  exact ⟨o, List.mem_singleton_self o, q, .inside hp hq, hf⟩

theorem wrap (h : e.RendersAll o.inside f.children) (hf : e.Renders o f) :
    e.RendersAll [o] [f] := by
  intro g hg
  rw [List.flatMap_singleton, Flow.walk_eq] at hg
  rcases List.mem_cons.1 hg with rfl | hg
  · exact .inr ⟨o, List.mem_singleton_self o, o, .self o, hf⟩
  · exact h.of_inside g hg

theorem join {xs ys : List Flow} {id : Id} (h : e.RendersAll os (xs ++ ns ++ ys))
    (hn : 1 < ns.length) (hs : ∀ f ∈ ns, !f.isSequence) :
    e.RendersAll os (xs ++ [.sequence { id } ns] ++ ys) := by
  intro f hf
  rcases List.mem_cons.1 ((Flow.flatMap_walk_join { id } xs ns ys).mem_iff.1 hf) with rfl | hf
  · exact .inl ⟨id, ns, rfl, hn, hs⟩
  · exact h f hf

end RendersAll

end Emitter

namespace Emits

variable {e : Emitter} {os : List Outline} {l m : Ledger} {ns : List Flow}

theorem rendersAll (h : Emits e os l ns m) : e.RendersAll os ns := by
  induction h with
  | nil | unreported | idleTernary | idleSwitch | idleLoop => nofun
  | append _ _ ih ih' => exact ih.append ih'
  | leaf origin leaf l _ =>
    refine Emitter.RendersAll.wrap ?_ (.leaf origin leaf l)
    cases leaf <;> nofun
  | join xs ys _ hn hs ih => exact ih.join hn hs
  | gather origin c callee name _ ih =>
    exact Emitter.RendersAll.wrap (by cases c <;> exact ih) (.gather rfl)
  | enclose origin c callee name _ _ ih =>
    exact Emitter.RendersAll.wrap (by cases c <;> exact ih) (.enclose rfl)
  | adopt origin c callee name _ hf ih =>
    obtain ⟨d, tag, callee, cs, rfl, rfl⟩ := Combinator.eq_node_of_adopt? hf
    intro g hg
    rw [List.flatMap_singleton, Combinator.walk_node] at hg
    rcases List.mem_cons.1 hg with rfl | hg
    · -- the adopted node renders what it rendered before
      obtain ⟨id, cs', hd, -⟩ | ⟨o, ho, p, hp, hd⟩ := ih (d.node tag callee cs) (by simp)
      · cases d <;> cases hd
      · exact .inr ⟨_, List.mem_singleton_self _, p, .inside ho hp, hd.rename _⟩
    · exact Emitter.RendersAll.of_inside ih g (by simp [hg])
  | ifElse origin condition _ hcs has ih =>
    exact Emitter.RendersAll.wrap ih (.ifElse hcs has)
  | guarded origin condition _ hcs ih =>
    exact Emitter.RendersAll.wrap (by simpa [Flow.children, Outline.inside] using ih) (.guarded hcs)
  | ternary origin condition _ hw hcs has ih =>
    exact Emitter.RendersAll.wrap ih (.ternary hw hcs has)
  | switch origin expression _ hw hcs ih =>
    exact Emitter.RendersAll.wrap ih (.switch hw hcs)
  | loop origin repetition _ hw hns ih =>
    exact Emitter.RendersAll.wrap ih (.loop hw hns)

end Emits

end FlowShape
