import FlowShape.Proofs.Related
import FlowShape.Proofs.Tree.Children

/-!
# Nodes that are written alike

Two nodes, each in a source of its own, are alike if they have the same structure and the same text,
wherever they stand. What a node says is told by its structure and its text alone, so alike nodes
say the same.
-/

namespace FlowShape

namespace Node

mutual

/-- Two nodes with the same structure and the same text. -/
def Alike (s s' : Source) : Node → Node → Prop
  | mk l cs, mk l' cs' =>
    l'.kind = l.kind ∧ s'.slice l'.start l'.stop = s.slice l.start l.stop ∧
      AlikeBelow s s' l.start l'.start cs cs'

/-- The children of two nodes that start at `a` and at `a'` are alike one by one, the text before
each of them included. -/
def AlikeBelow (s s' : Source) (a a' : Nat) : List Node → List Node → Prop
  | [], [] => True
  | c :: cs, c' :: cs' =>
    (c'.label.field = c.label.field ∧ c'.label.named = c.label.named ∧
      s'.slice a' c'.start = s.slice a c.start ∧ Alike s s' c c') ∧ AlikeBelow s s' a a' cs cs'
  | _, _ => False

end

mutual

def decideAlike (s s' : Source) : (n n' : Node) → Decidable (Alike s s' n n')
  | mk l cs, mk l' cs' =>
    have := decideAlikeBelow s s' l.start l'.start cs cs'
    inferInstanceAs (Decidable (l'.kind = l.kind ∧
      s'.slice l'.start l'.stop = s.slice l.start l.stop ∧
        AlikeBelow s s' l.start l'.start cs cs'))

def decideAlikeBelow (s s' : Source) (a a' : Nat) :
    (cs cs' : List Node) → Decidable (AlikeBelow s s' a a' cs cs')
  | [], [] => .isTrue trivial
  | [], _ :: _ | _ :: _, [] => .isFalse id
  | c :: cs, c' :: cs' =>
    have := decideAlike s s' c c'
    have := decideAlikeBelow s s' a a' cs cs'
    inferInstanceAs (Decidable ((c'.label.field = c.label.field ∧
      c'.label.named = c.label.named ∧ s'.slice a' c'.start = s.slice a c.start ∧
        Alike s s' c c') ∧ AlikeBelow s s' a a' cs cs'))

end

instance (s s' : Source) (n n' : Node) : Decidable (Alike s s' n n') := decideAlike s s' n n'

/-- Two children that are alike and stand in the same role. -/
structure Twin (s s' : Source) (n n' c c' : Node) : Prop where
  field : c'.label.field = c.label.field
  named : c'.label.named = c.label.named
  textUpTo : s'.textUpTo n' c' = s.textUpTo n c
  alike : Alike s s' c c'

namespace Alike

variable {s s' : Source} {n n' : Node}

theorem kind (h : Alike s s' n n') : n'.kind = n.kind := by
  cases n
  cases n'
  exact h.1

theorem text (h : Alike s s' n n') : s'.text n' = s.text n := by
  cases n
  cases n'
  exact h.2.1

theorem twins (h : Alike s s' n n') : List.Forall₂ (Twin s s' n n') n.children n'.children := by
  obtain ⟨l, cs⟩ := n
  obtain ⟨l', cs'⟩ := n'
  have key (ds ds' : List Node) (hd : AlikeBelow s s' l.start l'.start ds ds') :
      List.Forall₂ (Twin s s' (mk l cs) (mk l' cs')) ds ds' := by
    induction ds generalizing ds' with
    | nil =>
      cases ds' with
      | nil => exact .nil
      | cons => exact hd.elim
    | cons d ds ih =>
      cases ds' with
      | nil => exact hd.elim
      | cons d' ds' =>
        obtain ⟨⟨hfield, hnamed, hlead, halike⟩, hrest⟩ := hd
        exact .cons ⟨hfield, hnamed, hlead, halike⟩ (ih ds' hrest)
  exact key cs cs' h.2.2

theorem isFunctionLiteral (h : Alike s s' n n') : n'.isFunctionLiteral = n.isFunctionLiteral := by
  rw [Node.isFunctionLiteral, h.kind, Node.isFunctionLiteral]

theorem isFunctionScope (h : Alike s s' n n') : n'.isFunctionScope = n.isFunctionScope := by
  rw [Node.isFunctionScope, h.kind, Node.isFunctionScope]

/-! ## Moves -/

theorem parts (h : Alike s s' n n') : List.Forall₂ (Alike s s') n.parts n'.parts := by
  refine (h.twins.filter fun c c' hc => ?_).imp fun c c' hc => hc.alike
  rw [Node.isPart, Node.isPart, hc.named, hc.alike.kind]

theorem partsBut (h : Alike s s' n n') (f : Field) :
    List.Forall₂ (Alike s s') (n.partsBut f) (n'.partsBut f) := by
  refine ((h.twins.eraseP fun c c' hc => ?_).filter fun c c' hc => ?_).imp fun c c' hc => hc.alike
  · rw [hc.field]
  · rw [Node.isPart, Node.isPart, hc.named, hc.alike.kind]

theorem firstPart? (h : Alike s s' n n') : Option.Rel (Alike s s') n.firstPart? n'.firstPart? :=
  h.parts.head?

theorem twin? (h : Alike s s' n n') (f : Field) :
    Option.Rel (Twin s s' n n') (n.child? f) (n'.child? f) :=
  h.twins.find? fun c c' hc => by rw [hc.field]

theorem child? (h : Alike s s' n n') (f : Field) :
    Option.Rel (Alike s s') (n.child? f) (n'.child? f) :=
  (h.twin? f).imp fun _ _ hc => hc.alike

theorem inField (h : Alike s s' n n') (f : Field) :
    List.Forall₂ (Alike s s') (n.inField f) (n'.inField f) :=
  (h.child? f).toList

theorem unwrap (h : Alike s s' n n') : Alike s s' n.unwrap n'.unwrap := by
  induction n using childrenInduction generalizing n' with
  | h n ih =>
    by_cases ht : n.kind.isTransparent
    · have ht' : n'.kind.isTransparent := by rwa [h.kind]
      rcases h.firstPart?.cases_eq with ⟨hc, hc'⟩ | ⟨c, c', hc, hc', halike⟩
      · rwa [unwrap_of_bare hc, unwrap_of_bare hc']
      · rw [unwrap_of_firstPart? ht hc, unwrap_of_firstPart? ht' hc']
        exact ih c (mem_children_of_firstPart? hc) halike
    · rw [Bool.not_eq_true] at ht
      rwa [unwrap_of_not_transparent ht, unwrap_of_not_transparent (h.kind ▸ ht)]

theorem callArguments (h : Alike s s' n n') :
    List.Forall₂ (Alike s s') n.callArguments n'.callArguments := by
  unfold Node.callArguments
  rcases (h.child? .arguments).cases_eq with ⟨hc, hc'⟩ | ⟨c, c', hc, hc', halike⟩
  · rw [hc, hc']
    exact .nil
  · simp only [hc, hc', halike.kind]
    split
    · exact halike.parts
    · exact .nil

theorem declaredValues (h : Alike s s' n n') :
    List.Forall₂ (Alike s s') n.declaredValues n'.declaredValues :=
  List.rel_filterMap (fun _ _ hd => hd.child? .value) h.parts

theorem tryBlocks (h : Alike s s' n n') :
    List.Forall₂ (Alike s s') n.tryBlocks n'.tryBlocks :=
  List.rel_append
    (List.rel_append (h.inField .body)
      (List.rel_flatMap (h.inField .handler) fun _ _ hc => hc.inField .body))
    (List.rel_flatMap (h.inField .finalizer) fun _ _ hc => hc.inField .body)

theorem switchCases (h : Alike s s' n n') :
    List.Forall₂ (Alike s s') n.switchCases n'.switchCases :=
  List.rel_flatMap (h.inField .body) fun _ _ hb => hb.parts.filter fun _ _ hc => by rw [hc.kind]

theorem visit {enter : Node → Bool} (henter : ∀ {n n'}, Alike s s' n n' → enter n' = enter n)
    {agenda agenda' : List Node} (h : List.Forall₂ (Alike s s') agenda agenda') :
    List.Forall₂ (Alike s s') (visit enter agenda) (visit enter agenda') := by
  fun_induction Node.visit enter agenda generalizing agenda' with
  | case1 =>
    cases h
    simp [Node.visit]
  | case2 n rest ih =>
    obtain ⟨n', rest', hn, hrest, rfl⟩ := List.forall₂_cons_left_iff.1 h
    rw [Node.visit]
    exact .cons hn (ih (List.rel_append (hn.parts.filter fun c c' hc => henter hc) hrest))

theorem findOutsideFunctions? {p : Node → Bool}
    (hp : ∀ {n n'}, Alike s s' n n' → p n' = p n) (h : Alike s s' n n') :
    Option.Rel (Alike s s') (n.findOutsideFunctions? p) (n'.findOutsideFunctions? p) :=
  (visit (fun hc => by rw [hc.isFunctionScope]) (.cons h .nil)).find? fun c c' hc => hp hc

end Alike

end Node

end FlowShape
