import FlowShape.Proofs.Emission.Relabeling

/-!
# Emission without places and quotes

Two emissions agree if they give the same nodes with the same numbers and keep the same account,
apart from where the nodes stand and from the texts that the condition of a helper quotes. Outlines
that differ in no more than that are emitted in agreement.
-/

namespace FlowShape

/-- A condition without the texts that it quotes. -/
def Condition.unquoted (c : Condition) : Condition :=
  { c with text := "", defaultValue := c.defaultValue.map fun _ => "" }

/-- Leaves all places out. -/
def Relabeling.unplacing : Relabeling where
  place _ := none

namespace Flow

/-- A node without the texts that its condition quotes. -/
def unquoted : Flow → Flow
  | conditional tag condition cs as => conditional tag condition.unquoted cs as
  | f => f

/-- What is left of a node without places and quotes. -/
def gist (f : Flow) : Flow := (f.relabel .unplacing).unquoted

end Flow

namespace Emit

/-- Two emissions that differ in places and quotes only. -/
def Agrees (x x' : Emit (List Flow)) : Prop :=
  ∀ l : Ledger, (x'.run l).1.map Flow.gist = (x.run l).1.map Flow.gist ∧
    Relabeling.unplacing.ledger (x'.run l).2 = Relabeling.unplacing.ledger (x.run l).2

/-- Emissions agree if the same emission mirrors both without places, and what it leaves out is
left out of a gist. -/
theorem Agrees.of_mirrors {x x' y : Emit (List Flow)} {f g : List Flow → List Flow}
    (hgist : ∀ fs, fs.map Flow.gist = g (f fs)) (h : Mirrors .unplacing f x y)
    (h' : Mirrors .unplacing f x' y) : Agrees x x' := by
  intro l
  obtain ⟨hnodes, hledger⟩ := Prod.mk.inj ((h' l).symm.trans (h l))
  exact ⟨by rw [hgist, hgist, hnodes], hledger⟩

end Emit

namespace Emitter

/-- The same emitter without places. -/
def unplaced (e : Emitter) : Emitter := { e with includeLocations := false }

variable {e e' : Emitter}

theorem relabels_unplaced (hreport : e'.reportUnknown = e.reportUnknown) :
    Relabels .unplacing (fun _ => Outline.nowhere) e' e.unplaced where
  location n := by simp [location, unplaced, Relabeling.unplacing]
  reportUnknown := hreport.symm

/-- Outlines that differ in places only are emitted in agreement. -/
theorem agrees_of_unplaced (hreport : e'.reportUnknown = e.reportUnknown) {os os' : List Outline}
    (h : os'.map Outline.unplaced = os.map Outline.unplaced) :
    Emit.Agrees (e.outlines os) (e'.outlines os') := by
  have hos := (relabels_unplaced (e := e) rfl).outlines os
  have hos' := (relabels_unplaced hreport).outlines os'
  rw [Outline.mapOriginAll_eq_map] at hos hos'
  refine .of_mirrors (g := List.map Flow.unquoted) (fun fs => ?_) hos (h ▸ hos')
  rw [List.map_map]
  rfl

/-- A helper call is emitted as one without the texts that its condition quotes. -/
theorem mirrors_guarded (hreport : e'.reportUnknown = e.reportUnknown) (n : Node) (c : Condition)
    (body : List Outline) :
    Emit.Mirrors .unplacing (List.map Flow.gist) (e'.outlines [.guarded n c body])
      (e.unplaced.outlines
        [.guarded Outline.nowhere c.unquoted (body.map Outline.unplaced)]) := by
  have hrelabels := relabels_unplaced hreport
  have hbody := hrelabels.outlines body
  rw [Outline.mapOriginAll_eq_map] at hbody
  have hnode : Emit.Mirrors .unplacing (List.map Flow.gist) (e'.outline (.guarded n c body))
      (e.unplaced.outline
        (.guarded Outline.nowhere c.unquoted (body.map Outline.unplaced))) :=
    (Emit.Mirrors.count _).bind fun _ => hbody.bind fun cs => (Emit.Mirrors.compose cs).bind
      fun cs => (hrelabels.tag "conditional" n none none).bind fun tag => .pure (by
        simp [Flow.gist, Flow.unquoted, Flow.relabel_conditional])
  have hnone : Emit.Mirrors .unplacing (List.map Flow.gist) (e'.outlines [])
      (e.unplaced.outlines []) := .pure rfl
  exact hnode.bind fun ns => hnone.bind fun ms => .pure (by simp)

/-- Helper calls that differ in places and in the texts that their conditions quote are emitted in
agreement. -/
theorem agrees_guarded (hreport : e'.reportUnknown = e.reportUnknown) {n n' : Node}
    {c c' : Condition} (hc : c'.unquoted = c.unquoted) {body body' : List Outline}
    (hbody : body'.map Outline.unplaced = body.map Outline.unplaced) :
    Emit.Agrees (e.outlines [.guarded n c body]) (e'.outlines [.guarded n' c' body']) := by
  have h := mirrors_guarded (e := e) rfl n c body
  have h' := mirrors_guarded hreport n' c' body'
  rw [hc, hbody] at h'
  exact .of_mirrors (g := id) (fun _ => rfl) h h'

end Emitter

end FlowShape
