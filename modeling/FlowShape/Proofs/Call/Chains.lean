import FlowShape.Proofs.Call.Dressing
import FlowShape.Proofs.Reading.Naming
import FlowShape.Proofs.Tree.Builder

/-!
# Callees are chains of accesses

A chain of accesses can be spelled in many ways: each access is plain or optional, with comments
around it, and each prefix of the chain can be asserted not to be null. A callee is named by the
chain, so what a call means does not depend on the spelling, and a call is one of a method of the
step function just if its chain is the name of the function and then that of the method.
-/

namespace FlowShape

/-! ## Spellings of chains -/

namespace Node

variable {n object property operand : Node}

/-- A comment of either sort. -/
def isComment (n : Node) : Bool :=
  (n.kind == .comment || n.kind == .other "html_comment") && n.label.field == none

/-- The full stop of an access, plain or optional. -/
def isStop (n : Node) : Bool :=
  n.kind == .other "." && n.label.field == none ||
    n.kind == .other "optional_chain" && n.label.field == some (.other "optional_chain")

/-- An access to a property of an object. -/
structure IsAccess (n object property : Node) : Prop where
  kind : n.kind = .memberExpression
  objectField : object.label.field = some .object
  propertyField : property.label.field = some .property
  children : ∃ before stop after, n.children = object :: (before ++ stop :: after ++ [property]) ∧
    (∀ c ∈ before ++ after, c.isComment) ∧ stop.isStop

/-- The assertion that an operand is not null. -/
structure IsAssertion (n operand : Node) : Prop where
  kind : n.kind = .nonNullExpression
  isPart : operand.isPart
  children : ∃ comments mark, n.children = operand :: (comments ++ [mark]) ∧
    (∀ c ∈ comments, c.isComment) ∧ mark.kind = .other "!"

theorem IsAccess.child?_object (h : n.IsAccess object property) :
    n.child? .object = some object := by
  obtain ⟨before, stop, after, hchildren, -⟩ := h.children
  simp [child?, hchildren, h.objectField]

theorem IsAccess.child?_property (h : n.IsAccess object property) :
    n.child? .property = some property := by
  obtain ⟨before, stop, after, hchildren, hcomments, hstop⟩ := h.children
  refine List.find?_eq_some_iff_append.2 ⟨by simp [h.propertyField], ?_⟩
  refine ⟨object :: (before ++ stop :: after), [], by simp [hchildren], fun c hc => ?_⟩
  have hcomment (c : Node) (hc : c.isComment) : c.label.field = none := by
    simp only [isComment, Bool.and_eq_true, beq_iff_eq] at hc
    exact hc.2
  have hstop : stop.label.field ≠ some .property := by
    simp only [isStop, Bool.or_eq_true, Bool.and_eq_true, beq_iff_eq] at hstop
    rcases hstop with ⟨-, h⟩ | ⟨-, h⟩ <;> simp [h]
  have hobject := h.objectField
  grind

theorem IsAssertion.firstPart?_eq (h : n.IsAssertion operand) : n.firstPart? = some operand := by
  obtain ⟨comments, mark, hchildren, -⟩ := h.children
  simp [firstPart?, parts, hchildren, h.isPart]

/-- What the grammar says about accesses and assertions. -/
structure WritesAccess (n : Node) : Prop where
  access : n.kind = .memberExpression → ∃ object property, n.IsAccess object property
  assertion : n.kind = .nonNullExpression → ∃ operand, n.IsAssertion operand

/-- A node that goes on to another one in a chain. -/
def isLink (n : Node) : Bool := n.kind == .memberExpression || n.kind == .nonNullExpression

end Node

namespace Source

variable {src : Source} {root n object property operand : Node} {names : List String}

/-- The names of the properties that are accessed one after another, from a root on. -/
inductive Accesses (src : Source) (root : Node) : Node → List String → Prop
  | root : src.Accesses root root []
  | access {n object property : Node} {names : List String} : n.IsAccess object property →
      src.Accesses root object names → src.Accesses root n (names ++ [src.text property])
  | assertion {n operand : Node} {names : List String} : n.IsAssertion operand →
      src.Accesses root operand names → src.Accesses root n names

/-- A chain of accesses that starts at an identifier. No identifier has a full stop in it. -/
def IsChain (src : Source) (n : Node) (names : List String) : Prop :=
  ∃ root rest, root.kind = .identifier ∧ '.' ∉ (src.text root).toList ∧
    src.Accesses root n rest ∧ names = src.text root :: rest

theorem IsChain.of_identifier {name : String} (hkind : n.kind = .identifier)
    (htext : src.text n = name) (hword : '.' ∉ name.toList) : src.IsChain n [name] := by
  subst htext
  exact ⟨n, [], hkind, hword, .root, rfl⟩

theorem IsChain.access {name : String} (h : src.IsChain object names)
    (haccess : n.IsAccess object property) (htext : src.text property = name) :
    src.IsChain n (names ++ [name]) := by
  obtain ⟨root, rest, hroot, hword, hrest, rfl⟩ := h
  subst htext
  exact ⟨root, rest ++ [_], hroot, hword, .access haccess hrest, rfl⟩

theorem IsChain.assertion (h : src.IsChain operand names) (hassertion : n.IsAssertion operand) :
    src.IsChain n names := by
  obtain ⟨root, rest, hroot, hword, hrest, rfl⟩ := h
  exact ⟨root, rest, hroot, hword, .assertion hassertion hrest, rfl⟩

theorem calleeText_of_not_isLink (h : n.isLink = false) : src.calleeText n = src.text n := by
  rw [calleeText]
  split <;> simp_all [Node.isLink]

theorem calleeText_of_isAccess (h : n.IsAccess object property) :
    src.calleeText n = src.calleeText object ++ "." ++ src.text property := by
  rw [calleeText]
  simp only [h.kind]
  split
  · next hobject hproperty =>
    obtain rfl := Option.some.inj (h.child?_object.symm.trans hobject)
    obtain rfl := Option.some.inj (h.child?_property.symm.trans hproperty)
    rfl
  · next hnone => exact (hnone _ _ h.child?_object h.child?_property).elim

theorem calleeText_of_isAssertion (h : n.IsAssertion operand) :
    src.calleeText n = src.calleeText operand := by
  rw [calleeText]
  simp only [h.kind]
  split
  · next hinner =>
    obtain rfl := Option.some.inj (h.firstPart?_eq.symm.trans hinner)
    rfl
  · next hnone => simp [h.firstPart?_eq] at hnone

/-- The spelling of the accesses does not matter. -/
theorem Accesses.calleeText_eq (h : src.Accesses root n names) :
    src.calleeText n = ".".intercalate (src.calleeText root :: names) := by
  induction h with
  | root => simp
  | access haccess _ ih =>
    rw [calleeText_of_isAccess haccess, ih, ← List.cons_append,
      String.intercalate_append_of_ne_nil (List.cons_ne_nil _ _) (List.cons_ne_nil _ _),
      String.intercalate_singleton]
  | assertion hassertion _ ih => rw [calleeText_of_isAssertion hassertion, ih]

theorem IsChain.calleeText_eq (h : src.IsChain n names) :
    src.calleeText n = ".".intercalate names := by
  obtain ⟨root, rest, hroot, -, haccesses, rfl⟩ := h
  rw [haccesses.calleeText_eq, calleeText_of_not_isLink (by simp [Node.isLink, hroot])]

/-- Unwrapping takes off the assertions around an access, and no more. -/
theorem Accesses.unwrap_cases (h : src.Accesses root n names)
    (hroot : root.kind.isTransparent = false) :
    src.Accesses root n.unwrap names ∧ (n.unwrap = root ∧ names = [] ∨
      ∃ object property front, n.unwrap.IsAccess object property ∧
        names = front ++ [src.text property]) := by
  induction h with
  | root =>
    rw [Node.unwrap_of_not_transparent hroot]
    exact ⟨.root, .inl ⟨rfl, rfl⟩⟩
  | @access n object property names haccess hobject =>
    rw [Node.unwrap_of_not_transparent (by simp [haccess.kind, Kind.isTransparent])]
    exact ⟨.access haccess hobject, .inr ⟨object, property, names, haccess, rfl⟩⟩
  | assertion hassertion _ ih =>
    rwa [Node.unwrap_of_firstPart? (by simp [hassertion.kind, Kind.isTransparent])
      hassertion.firstPart?_eq]

/-- The names of a chain tell what stands in its wrappers: an identifier, or an access to the last
of the names. -/
theorem IsChain.ends_unwrap (h : src.IsChain n.unwrap names) :
    n.unwrap.kind = (if names.tail = [] then .identifier else .memberExpression) ∧
    (n.unwrap.kind = .memberExpression →
      (n.unwrap.child? .property).map src.text = names.getLast?) := by
  obtain ⟨root, rest, hroot, -, haccesses, rfl⟩ := h
  have hbare : root.kind.isTransparent = false := by simp [hroot, Kind.isTransparent]
  obtain ⟨-, hends⟩ := haccesses.unwrap_cases hbare
  rw [Node.unwrap_unwrap] at hends
  rcases hends with ⟨hn, rfl⟩ | ⟨object, property, front, haccess, rfl⟩
  · simp [hn, hroot]
  · simp [haccess.kind, haccess.child?_property, List.getLast?_cons]

theorem IsChain.unwrap (h : src.IsChain n names) : src.IsChain n.unwrap names := by
  obtain ⟨root, rest, hroot, hword, haccesses, rfl⟩ := h
  have hbare : root.kind.isTransparent = false := by simp [hroot, Kind.isTransparent]
  exact ⟨root, rest, hroot, hword, (haccesses.unwrap_cases hbare).1, rfl⟩

/-- Each expression is a chain of accesses from a root that is no access itself. -/
theorem exists_accesses (src : Source) (hgrammar : ∀ c ∈ n.nodes, c.WritesAccess) :
    ∃ root names, src.Accesses root n names ∧ root.isLink = false := by
  induction n using Node.childrenInduction with
  | h n ih =>
    have hgrammar' {c : Node} (hc : c ∈ n.children) : ∀ d ∈ c.nodes, d.WritesAccess :=
      fun d hd => hgrammar d (Node.mem_nodes_of_mem_children hc hd)
    obtain ⟨haccess, hassertion⟩ := hgrammar n n.self_mem_nodes
    by_cases hmember : n.kind = .memberExpression
    · obtain ⟨object, property, hn⟩ := haccess hmember
      have hc := List.mem_of_find?_eq_some hn.child?_object
      obtain ⟨root, names, hroot, hlink⟩ := ih object hc (hgrammar' hc)
      exact ⟨root, _, .access hn hroot, hlink⟩
    by_cases hnonNull : n.kind = .nonNullExpression
    · obtain ⟨operand, hn⟩ := hassertion hnonNull
      have hc := Node.mem_children_of_firstPart? hn.firstPart?_eq
      obtain ⟨root, names, hroot, hlink⟩ := ih operand hc (hgrammar' hc)
      exact ⟨root, _, .assertion hn hroot, hlink⟩
    · exact ⟨n, [], .root, by simp [Node.isLink, hmember, hnonNull]⟩

/-- A call of a chain, in wrappers or not. -/
def CallsChain (src : Source) (call : Node) (names : List String) : Prop :=
  ∃ f, call.child? .function = some f ∧ src.IsChain f.unwrap names

theorem IsChain.callsChain {call : Node} (h : src.IsChain n names)
    (hn : call.child? .function = some n) : src.CallsChain call names :=
  ⟨n, hn, h.unwrap⟩

end Source

/-! ## Methods of the step function -/

namespace StepMethod

def name : StepMethod → String
  | .retry => "retry"
  | .withTimeout => "withTimeout"
  | .parallel => "parallel"
  | .race => "race"
  | .stream .write => "getWritable"
  | .stream .read => "getReadable"
  | .stream .forEach => "streamForEach"

theorem ofName?_name (m : StepMethod) : ofName? m.name = some m := by
  cases m with
  | stream kind => cases kind <;> rfl
  | _ => rfl

theorem eq_name_of_ofName? {text : String} {m : StepMethod} (h : ofName? text = some m) :
    text = m.name := by
  unfold ofName? at h
  split at h <;> cases h <;> rfl

theorem stop_not_mem_name (m : StepMethod) : '.' ∉ m.name.toList := by
  cases m with
  | stream kind => cases kind <;> decide
  | _ => decide

end StepMethod

namespace Text

variable {head last step method : String} {names : List String}

/-- A text with one full stop falls apart at it in one way. -/
theorem append_stop_inj (hstep : '.' ∉ step.toList) (hmethod : '.' ∉ method.toList) :
    head ++ "." ++ last = step ++ "." ++ method ↔ head = step ∧ last = method := by
  have hsplit : step.toList ++ '.' :: method.toList = head.toList ++ '.' :: last.toList ↔
      step.toList = head.toList ∧ '.' = '.' ∧ method.toList = last.toList :=
    List.append_cons_inj_of_notMem hstep hmethod
  simp only [String.toList_inj, true_and] at hsplit
  rw [← String.toList_inj]
  simpa [eq_comm] using hsplit

theorem intercalate_eq_iff (hstep : '.' ∉ step.toList) (hmethod : '.' ∉ method.toList) :
    ".".intercalate (head :: names) = step ++ "." ++ method ↔
      head = step ∧ names = [method] ∨ head = step ++ "." ++ method ∧ names = [] := by
  rcases List.eq_nil_or_concat' names with rfl | ⟨front, last, rfl⟩
  · simp
  have hfront : ".".intercalate (head :: front) = step ↔ head = step ∧ front = [] := by
    cases front with
    | nil => simp
    | cons second rest =>
      -- two names are joined by a full stop, and there is none in the name of the step function
      simp only [String.intercalate_cons_cons, reduceCtorEq, and_false, iff_false]
      rintro rfl
      simp at hstep
  rw [← List.cons_append,
    String.intercalate_append_of_ne_nil (List.cons_ne_nil _ _) (List.cons_ne_nil _ _),
    String.intercalate_singleton, append_stop_inj hstep hmethod, hfront]
  simp [List.append_eq_singleton_iff, and_assoc]

end Text

/-! ## Calls of chains -/

/-- What the grammar says about the callee of a call: at the root of its accesses stands nothing
that is spelled as an access to a method of the step function, and what is spelled as the function
itself is an identifier. -/
structure Source.SpellsOut (src : Source) (step : String) (call : Node) : Prop where
  accesses : ∀ n ∈ call.nodes, n.WritesAccess
  roots : ∀ f root names, call.child? .function = some f → src.Accesses root f.unwrap names →
    root.isLink = false → (src.text root = step → root.kind = .identifier) ∧
      ∀ m : StepMethod, src.text root ≠ step ++ "." ++ m.name

namespace Reader

variable {r : Reader} {step : String} {call : Node} {m : StepMethod} {names : List String}

theorem classify_eq_method_iff (hstep : r.context.step = some step) :
    r.classify call = some (.method m) ↔ ∃ f, call.child? .function = some f ∧
      r.source.calleeText f.unwrap = step ++ "." ++ m.name := by
  constructor
  · intro h
    obtain ⟨f, hf, -⟩ := Option.bind_eq_some_iff.1 h
    cases classified h with
    | method hcontext hcallee hmethod =>
      obtain rfl := Option.some.inj (hstep.symm.trans hcontext)
      obtain rfl := StepMethod.eq_name_of_ofName? hmethod
      exact ⟨f, hf, by simpa [Source.calleeOf, hf] using hcallee⟩
  · rintro ⟨f, hf, hcallee⟩
    have hshape := stepShape?_member hstep m.ofName?_name
    simp [classify, hf, hcallee, hshape]

/-- In a call of a chain the chain is all that matters of the callee. -/
theorem classify_eq_of_callsChain {s' : Source} {call' : Node}
    (h : r.source.CallsChain call names) (h' : s'.CallsChain call' names)
    (harguments : List.Forall₂ (Node.Alike r.source s') call.callArguments call'.callArguments) :
    (r.within s').classify call' = r.classify call := by
  obtain ⟨f, hf, hchain⟩ := h
  obtain ⟨f', hf', hchain'⟩ := h'
  have hcallee : s'.calleeText f'.unwrap = r.source.calleeText f.unwrap :=
    hchain'.calleeText_eq.trans hchain.calleeText_eq.symm
  have hcallback : Option.Rel (Node.Alike r.source s') call.leadingCallback?
      call'.leadingCallback? :=
    harguments.head?.filter fun _ _ hc => hc.isFunctionLiteral
  obtain ⟨hends, hlast⟩ := hchain.ends_unwrap
  obtain ⟨hends', hlast'⟩ := hchain'.ends_unwrap
  have hkind : f'.unwrap.kind = f.unwrap.kind := hends'.trans hends.symm
  have hproperty (hmember : f.unwrap.kind = .memberExpression) :
      (f'.unwrap.child? .property).map s'.text =
        (f.unwrap.child? .property).map r.source.text :=
    (hlast' (hkind.trans hmember)).trans (hlast hmember).symm
  rw [classify_eq, classify_eq, hf, hf', Option.bind_some, Option.bind_some, source_within, hcallee,
    callbackShape?_congr hkind hproperty hcallee hcallback]
  rfl

theorem callsChain_of_classify (hstep : r.context.step = some step) (hword : '.' ∉ step.toList)
    (hspells : r.source.SpellsOut step call) (h : r.classify call = some (.method m)) :
    r.source.CallsChain call [step, m.name] := by
  obtain ⟨f, hf, hcallee⟩ := (classify_eq_method_iff hstep).1 h
  have hgrammar : ∀ n ∈ f.unwrap.nodes, n.WritesAccess := by
    intro n hn
    apply hspells.accesses
    apply Node.mem_nodes_of_mem_children (List.mem_of_find?_eq_some hf)
    exact (Node.nodes_sublist_of_mem f.unwrap_mem_nodes).subset hn
  -- nothing is known of the root yet: it may be any expression that is no access
  obtain ⟨root, names, haccesses, hlink⟩ := r.source.exists_accesses hgrammar
  obtain ⟨hname, hmethod⟩ := hspells.roots f root names hf haccesses hlink
  rw [haccesses.calleeText_eq, Source.calleeText_of_not_isLink hlink,
    Text.intercalate_eq_iff hword m.stop_not_mem_name] at hcallee
  rcases hcallee with ⟨htext, rfl⟩ | ⟨htext, -⟩
  · exact ⟨f, hf, root, [m.name], hname htext, htext ▸ hword, haccesses, by rw [htext]⟩
  · exact (hmethod m htext).elim

theorem classify_eq_method_iff_of_callsChain (hstep : r.context.step = some step)
    (hword : '.' ∉ step.toList) (h : r.source.CallsChain call names) :
    r.classify call = some (.method m) ↔ names = [step, m.name] := by
  obtain ⟨f, hf, hchain⟩ := h
  rw [classify_eq_method_iff hstep]
  simp only [hf, Option.some.injEq, exists_eq_left', hchain.calleeText_eq]
  obtain ⟨root, rest, -, hroot, -, rfl⟩ := hchain
  rw [Text.intercalate_eq_iff hword m.stop_not_mem_name]
  have hne : r.source.text root ≠ step ++ "." ++ m.name := by
    intro htext
    simp [htext] at hroot
  simp [hne]

/-- A callee is named by its chain, however it is spelled. So calls of one chain with the same
arguments mean the same, and a call is one of a method of the step function just if its chain is
the name of the function and then that of the method. -/
theorem callees_are_matched_by_their_chains (r : Reader) :
    (∀ n names, r.source.IsChain n names →
      r.source.calleeText n = ".".intercalate names ∧ r.source.IsChain n.unwrap names) ∧
    (∀ s' call call' names, r.source.CallsChain call names → s'.CallsChain call' names →
      List.Forall₂ (Node.Alike r.source s') call.callArguments call'.callArguments →
      (r.within s').classify call' = r.classify call) ∧
    ∀ step call m, r.context.step = some step → '.' ∉ step.toList →
      (∀ names, r.source.CallsChain call names →
        (r.classify call = some (.method m) ↔ names = [step, m.name])) ∧
      (r.source.SpellsOut step call →
        (r.classify call = some (.method m) ↔ r.source.CallsChain call [step, m.name])) := by
  refine ⟨fun n names h => ⟨h.calleeText_eq, h.unwrap⟩, fun s' call call' names h h' => ?_, ?_⟩
  · exact classify_eq_of_callsChain h h'
  · intro step call m hstep hword
    have hnamed {names : List String} (h : r.source.CallsChain call names) :
        r.classify call = some (.method m) ↔ names = [step, m.name] :=
      classify_eq_method_iff_of_callsChain hstep hword h
    refine ⟨fun names h => hnamed h, fun hspells => ⟨fun h => ?_, fun h => (hnamed h).2 rfl⟩⟩
    exact callsChain_of_classify hstep hword hspells h

end Reader

namespace Sample

def optionalSource : Source := .ofString "sample.ts" "s?.retry(f)"
def assertedSource : Source := .ofString "sample.ts" "s! /**/ .retry(f)"

/-- Reads a callback that knows the step function as `s`. -/
def optionalReader : Reader := ⟨optionalSource, {}, { step := some "s" }⟩

def optionalAccess : Node :=
  role .function .memberExpression 0 8 [
    role .object .identifier 0 1 [],
    role (.other "optional_chain") (.other "optional_chain") 1 3 [token "?." 1],
    role .property (.other "property_identifier") 3 8 []]

def assertedAccess : Node :=
  role .function .memberExpression 0 14 [
    role .object .nonNullExpression 0 2 [part .identifier 0 1 [], token "!" 1],
    part .comment 3 7 [], token "." 8,
    role .property (.other "property_identifier") 9 14 []]

/-- A call with the argument `f`. -/
def callOf (function : Node) : Node :=
  let start := function.stop
  part .callExpression 0 (start + 3) [
    function,
    role .arguments .arguments start (start + 3) [
      token "(" start, part .identifier (start + 1) (start + 2) [], token ")" (start + 2)]]

end Sample

namespace Reader

/-- `s?.retry(f)` and `s! /**/ .retry(f)` call the same chain, and both are retried steps. -/
theorem callees_are_matched_by_their_chains_optional :
    Sample.optionalReader.context.step = some "s" ∧ '.' ∉ "s".toList ∧
    Sample.optionalSource.CallsChain (Sample.callOf Sample.optionalAccess) ["s", "retry"] ∧
    Sample.assertedSource.CallsChain (Sample.callOf Sample.assertedAccess) ["s", "retry"] ∧
    List.Forall₂ (Node.Alike Sample.optionalSource Sample.assertedSource)
      (Sample.callOf Sample.optionalAccess).callArguments
      (Sample.callOf Sample.assertedAccess).callArguments ∧
    Sample.optionalSource.SpellsOut "s" (Sample.callOf Sample.optionalAccess) ∧
    Sample.optionalReader.classify (Sample.callOf Sample.optionalAccess) =
      some (.method .retry) ∧
    (Sample.optionalReader.within Sample.assertedSource).classify
      (Sample.callOf Sample.assertedAccess) = some (.method .retry) := by
  obtain ⟨hs, hretry, hs', hretry', halike⟩ :
      Sample.optionalSource.text (Sample.role .object .identifier 0 1 []) = "s" ∧
      Sample.optionalSource.slice 3 8 = "retry" ∧
      Sample.assertedSource.text (Sample.part .identifier 0 1 []) = "s" ∧
      Sample.assertedSource.slice 9 14 = "retry" ∧
      Node.Alike Sample.optionalSource Sample.assertedSource
        (Sample.part .identifier 9 10 []) (Sample.part .identifier 15 16 []) := by
    decide +kernel
  have haccess : Sample.optionalAccess.IsAccess (Sample.role .object .identifier 0 1 [])
      (Sample.role .property (.other "property_identifier") 3 8 []) :=
    ⟨rfl, rfl, rfl, [], _, [], rfl, by simp, rfl⟩
  have haccess' : Sample.assertedAccess.IsAccess
      (Sample.role .object .nonNullExpression 0 2
        [Sample.part .identifier 0 1 [], Sample.token "!" 1])
      (Sample.role .property (.other "property_identifier") 9 14 []) :=
    ⟨rfl, rfl, rfl, [Sample.part .comment 3 7 []], _, [], rfl, by decide, rfl⟩
  have hword : '.' ∉ "s".toList := by decide
  have hcall : Sample.optionalSource.CallsChain (Sample.callOf Sample.optionalAccess)
      ["s", "retry"] :=
    ((Source.IsChain.of_identifier rfl hs hword).access haccess hretry).callsChain rfl
  have hcall' : Sample.assertedSource.CallsChain (Sample.callOf Sample.assertedAccess)
      ["s", "retry"] :=
    (((Source.IsChain.of_identifier rfl hs' hword).assertion
      ⟨rfl, rfl, [], _, rfl, by simp, rfl⟩).access haccess' hretry').callsChain rfl
  have harguments : List.Forall₂ (Node.Alike Sample.optionalSource Sample.assertedSource)
      (Sample.callOf Sample.optionalAccess).callArguments
      (Sample.callOf Sample.assertedAccess).callArguments := .cons halike .nil
  have hlinks : (Sample.callOf Sample.optionalAccess).nodes.filter Node.isLink =
      [Sample.optionalAccess] := rfl
  have hspells : Sample.optionalSource.SpellsOut "s" (Sample.callOf Sample.optionalAccess) := by
    refine ⟨fun n hn => ?_, fun f root names hf haccesses hlink => ?_⟩
    · by_cases hlink : n.isLink
      · have hmem : n ∈ [Sample.optionalAccess] := hlinks ▸ List.mem_filter.2 ⟨hn, hlink⟩
        obtain rfl := List.mem_singleton.1 hmem
        refine ⟨fun _ => ⟨_, _, haccess⟩, fun hkind => ?_⟩
        cases hkind
      · constructor <;> intro hkind <;> simp [Node.isLink, hkind] at hlink
    · obtain rfl : Sample.optionalAccess = f := Option.some.inj hf
      rw [Node.unwrap_of_not_transparent rfl] at haccesses
      cases haccesses with
      | root => cases hlink
      | assertion h => cases h.kind
      | access h hobject =>
        obtain rfl := Option.some.inj (h.child?_object.symm.trans haccess.child?_object)
        cases hobject with
        | root =>
          refine ⟨fun _ => rfl, fun m hm => ?_⟩
          rw [← hs, hm] at hword
          simp at hword
        | access h => cases h.kind
        | assertion h => cases h.kind
  obtain ⟨-, hsame, hmethod⟩ := callees_are_matched_by_their_chains Sample.optionalReader
  have hclassify := ((hmethod "s" _ .retry rfl hword).2 hspells).2 hcall
  exact ⟨rfl, hword, hcall, hcall', harguments, hspells, hclassify,
    (hsame _ _ _ _ hcall hcall' harguments).trans hclassify⟩

end Reader

end FlowShape
