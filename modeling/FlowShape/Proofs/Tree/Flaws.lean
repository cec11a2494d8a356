import FlowShape.Error
import FlowShape.Proofs.Tree.Builder
import FlowShape.Proofs.Tree.Moves

/-!
# Flaws of a tree

The search for a flaw keeps a list of the trees still to do and leaves out those that are not marked
as flawed. In a tree whose marks are right it comes to the first flaw in document order, punctuation
and comments included, so a refused file is refused for that flaw, and a file is refused just if
there is one.
-/

namespace FlowShape

/-! ## The first site of a kind -/

namespace Site

variable {s t : Site} {tree : Node}

/-- All below a child comes before all below a later one. -/
theorem precedes_of_child_lt {c c' : Node} {i j : Nat} (hij : i < j) {u v : Site}
    (hu : Holds ⟨c, ⟨s.node, i⟩ :: s.above⟩ u) (hv : Holds ⟨c', ⟨s.node, j⟩ :: s.above⟩ v) :
    u.Precedes v := by
  obtain ⟨below, hbelow⟩ := hu.exists_path_eq
  obtain ⟨below', hbelow'⟩ := hv.exists_path_eq
  have hlex : List.Lex (· < ·) (s.path ++ i :: below) (s.path ++ j :: below') :=
    List.Lex.append_left _ (.rel hij) s.path
  simpa [Precedes, hbelow, hbelow'] using hlex

/-- A site comes before all below it. -/
theorem Holds.eq_or_precedes (h : s.Holds t) : t = s ∨ s.Precedes t := by
  cases h with
  | here => exact .inl rfl
  | @child _ _ i c hc h =>
    obtain ⟨below, hbelow⟩ := h.exists_path_eq
    have hlex : List.Lex (· < ·) (s.path ++ []) (s.path ++ i :: below) :=
      List.Lex.append_left _ .nil s.path
    exact .inr (by simpa [Precedes, hbelow] using hlex)

/-- The first node of a tree that satisfies a condition stands at the first site that does. -/
theorem exists_first_of_find? {p : Node → Bool} {d : Node} (h : s.node.nodes.find? p = some d) :
    ∃ t, s.Holds t ∧ t.node = d ∧ ∀ u, s.Holds u → p u.node → u = t ∨ t.Precedes u := by
  obtain ⟨n, above⟩ := s
  induction n using Node.childrenInduction generalizing above with
  | h n ih =>
    simp only [Node.nodes_eq n, List.find?_cons] at h
    split at h
    · obtain rfl := Option.some.inj h
      exact ⟨_, .here _, rfl, fun u hu _ => hu.eq_or_precedes⟩
    · next hn =>
      rw [List.find?_flatMap, List.findSome?_eq_some_iff] at h
      obtain ⟨before, c, behind, hchildren, hd, hbefore⟩ := h
      have hc : n.children[before.length]? = some c := by simp [hchildren]
      obtain ⟨t, ht, htd, hfirst⟩ :=
        ih c (List.mem_of_getElem? hc) (⟨n, before.length⟩ :: above) hd
      refine ⟨t, .child hc ht, htd, fun u hu hp => ?_⟩
      cases hu with
      | here => simp [hn] at hp
      | @child _ _ j e he hu =>
        -- the children before this one hold nothing of the sort, those behind it come later
        rcases Nat.lt_trichotomy j before.length with hlt | rfl | hlt
        · have hmem : e ∈ before := by
            rw [hchildren, List.getElem?_append_left hlt] at he
            exact List.mem_of_getElem? he
          have hnone := List.find?_eq_none.1 (hbefore e hmem) u.node hu.mem_nodes
          contradiction
        · obtain rfl : e = c := Option.some.inj (he.symm.trans hc)
          exact hfirst u hu hp
        · exact .inr (precedes_of_child_lt (s := ⟨n, above⟩) hlt ht hu)

/-- The first flaw of a tree in document order. -/
structure IsFirstFlaw (tree : Node) (s : Site) : Prop where
  below : Below tree s
  flaw : s.node.isFlaw
  first : ∀ t, Below tree t → t.node.isFlaw → t = s ∨ s.Precedes t

end Site

/-! ## The search -/

namespace Node

variable {n tree : Node}

/-- A tree is marked as flawed just if there is a flaw in it. -/
def IsMarked (n : Node) : Prop := n.label.flawed ↔ ∃ d ∈ n.nodes, d.isFlaw

instance (n : Node) : Decidable n.IsMarked :=
  inferInstanceAs (Decidable (n.label.flawed ↔ ∃ d ∈ n.nodes, d.isFlaw))

/-- The marks of a tree are right. The mark of a node below the root that is itself a flaw does not
matter. -/
structure WellMarked (tree : Node) : Prop where
  root : tree.IsMarked
  inner : ∀ n ∈ tree.nodes, n.isFlaw = false → n.IsMarked

/-- The search for a flaw finds the first one, whatever is left out. -/
theorem firstFlaw?_eq {agenda : List Node}
    (h : ∀ n ∈ agenda, ∀ d ∈ n.nodes, d.isFlaw = false → d.IsMarked) :
    firstFlaw? agenda = (agenda.flatMap nodes).find? isFlaw := by
  fun_induction firstFlaw? agenda with
  | case1 => rfl
  | case2 n rest hn => simp [nodes_eq n, hn]
  | case3 n rest hn ih =>
    obtain ⟨hmarks, hrest⟩ := List.forall_mem_cons.1 h
    have hclean : n.isFlaw = false := by simpa using hn
    have hmarked := hmarks n n.self_mem_nodes hclean
    cases hflag : n.label.flawed with
    | true =>
      have hchildren : ∀ c ∈ n.children, ∀ d ∈ c.nodes, d.isFlaw = false → d.IsMarked :=
        fun c hc d hd => hmarks d (mem_nodes_of_mem_children hc hd)
      simp only [hflag, ↓reduceDIte] at ih
      rw [if_pos rfl, ih (List.forall_mem_append.2 ⟨hchildren, hrest⟩), List.flatMap_append,
        List.flatMap_cons, nodes_eq n, List.cons_append, List.find?_cons_of_neg (by simp [hclean])]
    | false =>
      -- a tree that is not marked has no flaw, so it may be left out
      have hnone : n.nodes.find? isFlaw = none := by
        rw [List.find?_eq_none]
        intro d hd hflaw
        have := hmarked.2 ⟨d, hd, hflaw⟩
        rw [hflag] at this
        contradiction
      simp only [hflag, Bool.false_eq_true, ↓reduceDIte, List.nil_append] at ih
      rw [if_neg Bool.false_ne_true, List.nil_append, ih hrest, List.flatMap_cons,
        List.find?_append, hnone, Option.none_or]

theorem WellMarked.firstFlaw?_eq (h : tree.WellMarked) :
    firstFlaw? [tree] = tree.nodes.find? isFlaw := by
  rw [Node.firstFlaw?_eq (by simpa using h.inner)]
  simp

theorem exists_isFirstFlaw (h : tree.nodes.find? isFlaw = some n) :
    ∃ s, Site.IsFirstFlaw tree s ∧ s.node = n := by
  obtain ⟨s, hs, rfl, hfirst⟩ := Site.exists_first_of_find? (s := .root tree) h
  refine ⟨s, ⟨Site.holds_root_iff.1 hs, List.find?_some h, fun t ht => ?_⟩, rfl⟩
  exact hfirst t (Site.holds_root_iff.2 ht)

end Node

/-! ## Refused files -/

namespace Source

variable {src : Source} {tree : Node}

/-- A flaw is worded as a missing token just if it is one. -/
theorem flaw_cases (src : Source) (n : Node) :
    n.label.missing ∧ src.flaw n = .missing n.kind.name ∨
      n.label.missing = false ∧ ∃ snippet, src.flaw n = .unexpected snippet := by
  unfold flaw
  split
  · next h => exact .inl ⟨h, rfl⟩
  · next h => exact .inr ⟨by simpa using h, _, rfl⟩

/-- Where the marks are right, a file is refused for what an unguided search finds first. -/
theorem checkTree_eq (h : tree.WellMarked) :
    src.checkTree tree = match tree.nodes.find? Node.isFlaw with
      | some n => .error (.flawed src.path (src.line n) (src.position n.start).column (src.flaw n))
      | none => .ok () := by
  unfold checkTree
  rw [h.firstFlaw?_eq]
  cases hfind : tree.nodes.find? Node.isFlaw with
  | some n =>
    have hflag := h.root.2 ⟨n, List.mem_of_find?_eq_some hfind, List.find?_some hfind⟩
    rw [if_pos hflag]
    rfl
  | none =>
    have hflag : ¬tree.label.flawed := by
      intro hflag
      obtain ⟨d, hd, hflaw⟩ := h.root.1 hflag
      exact List.find?_eq_none.1 hfind d hd hflaw
    rw [if_neg hflag]

/-- A file is refused just if there is a flaw in its tree. It is refused for the first flaw in
document order, at the place of that flaw, which is worded as a missing token just if it is one. -/
theorem files_are_refused_for_first_flaw (src : Source) {tree : Node} (h : tree.WellMarked) :
    ((∃ e, src.checkTree tree = .error e) ↔ ∃ n ∈ tree.nodes, n.isFlaw) ∧
    (∀ e, src.checkTree tree = .error e → ∃ s, Site.IsFirstFlaw tree s ∧
      e = .flawed src.path (src.line s.node) (src.position s.node.start).column
        (src.flaw s.node) ∧
      (s.node.label.missing ∧
          (src.flaw s.node).message = "missing `" ++ s.node.kind.name ++ "`" ∨
        s.node.label.missing = false ∧
          ∃ snippet, (src.flaw s.node).message = "unexpected `" ++ snippet ++ "`")) ∧
    ∀ path line column, src.checkTree tree ≠ .error (.flawed path line column .somewhere) := by
  rw [checkTree_eq h]
  cases hfind : tree.nodes.find? Node.isFlaw with
  | none =>
    refine ⟨⟨nofun, ?_⟩, nofun, nofun⟩
    rintro ⟨n, hn, hflaw⟩
    exact absurd hflaw (List.find?_eq_none.1 hfind n hn)
  | some n =>
    have hmem := List.mem_of_find?_eq_some hfind
    obtain ⟨s, hs, rfl⟩ := Node.exists_isFirstFlaw hfind
    refine ⟨⟨fun _ => ⟨s.node, hmem, hs.flaw⟩, fun _ => ⟨_, rfl⟩⟩, ?_, ?_⟩
    · rintro e he
      refine ⟨s, hs, (Except.error.inj he).symm, ?_⟩
      rcases src.flaw_cases s.node with ⟨hmissing, hflaw⟩ | ⟨hmissing, snippet, hflaw⟩
      · exact .inl ⟨hmissing, by rw [hflaw]; rfl⟩
      · exact .inr ⟨hmissing, snippet, by rw [hflaw]; rfl⟩
    · intro path line column he
      rcases src.flaw_cases s.node with ⟨-, hflaw⟩ | ⟨-, snippet, hflaw⟩ <;>
        simp [hflaw] at he

end Source

namespace Sample

def flawSource : Source := .ofString "sample.ts" "f;\n  1 = 2 3"

/-- A node with a flaw in it. -/
def marked : Node → Node
  | .mk label children => .mk { label with flawed := true } children

def flawTree : Node :=
  marked (part .program 0 12 [
    part .expressionStatement 0 2 [part .identifier 0 1 [], token ";" 1],
    marked (part .expressionStatement 5 12 [
      marked (part (.other "assignment_expression") 5 12 [
        marked (role .left .nonNullExpression 5 6 [
          part .number 5 6 [],
          .mk { kind := .other "!", start := 6, stop := 6, named := false, missing := true,
                flawed := true } []]),
        token "=" 7,
        .mk { kind := .other "ERROR", start := 9, stop := 10, unexpected := true, flawed := true } [
          part .number 9 10 []],
        role .right .number 11 12 []])])])

end Sample

namespace Source

/-- In `1 = 2 3` a token is missing right behind the first number. It is deep in the tree, but it
comes before the second number, which is unexpected. The line is the second of the file and starts
with two blanks, so the flaw is told as line 2 and column 3 while its offset is 6. -/
theorem files_are_refused_for_first_flaw_token :
    Sample.flawTree.WellMarked ∧ Sample.flawTree.nodes.countP Node.isFlaw = 2 ∧
    Sample.flawSource.checkTree Sample.flawTree =
      .error (.flawed "sample.ts" 2 3 (.missing "!")) ∧
    ∃ s, Site.IsFirstFlaw Sample.flawTree s ∧ s.node.label.missing ∧
      Sample.flawSource.line s.node = 2 ∧
      (Sample.flawSource.position s.node.start).column = 3 := by
  have hmarked : Sample.flawTree.WellMarked := ⟨by decide, by decide⟩
  have hcheck : Sample.flawSource.checkTree Sample.flawTree =
      .error (.flawed "sample.ts" 2 3 (.missing "!")) := by
    rw [checkTree_eq hmarked]
    rfl
  obtain ⟨-, hfirst, -⟩ := files_are_refused_for_first_flaw Sample.flawSource hmarked
  obtain ⟨s, hs, he, -⟩ := hfirst _ hcheck
  obtain ⟨-, hline, hcolumn, hflaw⟩ := Error.flawed.inj he
  refine ⟨hmarked, by decide, hcheck, s, hs, ?_, hline.symm, hcolumn.symm⟩
  rcases Sample.flawSource.flaw_cases s.node with ⟨hmissing, -⟩ | ⟨-, snippet, hunexpected⟩
  · exact hmissing
  · rw [hunexpected] at hflaw
    cases hflaw

end Source

end FlowShape
