import Mathlib.Data.List.Permutation
import FlowShape.Proofs.Reading.Likeness
import FlowShape.Proofs.Step.Settings
import FlowShape.Proofs.Tree.Builder

/-!
# Options in another order

The order of options does not matter as long as none of them is given twice. Each setting is told by
the values of its keys, and a key that stands only once has the same value wherever it stands.
-/

namespace FlowShape

/-! ## Entries in another order -/

/-- The entries of `xs`, brought into some order, are related one by one to those of `ys`. -/
def Reordered {α β : Type} (R : α → β → Prop) (xs : List α) (ys : List β) : Prop :=
  ∃ zs, xs.Perm zs ∧ List.Forall₂ R zs ys

theorem reordered_iff_mem_permutations' {α β : Type} {R : α → β → Prop} {xs : List α}
    {ys : List β} : Reordered R xs ys ↔ ∃ zs ∈ xs.permutations', List.Forall₂ R zs ys := by
  simp only [Reordered, List.mem_permutations', List.perm_comm]

instance {α β : Type} (R : α → β → Prop) [∀ a b, Decidable (R a b)] (xs : List α) (ys : List β) :
    Decidable (Reordered R xs ys) :=
  decidable_of_iff' _ reordered_iff_mem_permutations'

/-- Entries with the same key and related values. -/
def SameKey (R : String → Node → Node → Prop) (e e' : String × Node) : Prop :=
  e'.1 = e.1 ∧ R e.1 e.2 e'.2

instance (R : String → Node → Node → Prop) [∀ key v v', Decidable (R key v v')]
    (e e' : String × Node) : Decidable (SameKey R e e') :=
  inferInstanceAs (Decidable (_ ∧ _))

section

variable {R : String → Node → Node → Prop} {keys : List String} {a : String}
  {entries entries' : List (String × Node)}

/-- Entries that are related one by one give related values to a key. -/
theorem forall₂_valuesOf {P : Node → Node → Prop}
    (h : List.Forall₂ (SameKey R) entries entries')
    (hP : ∀ key ∈ keys, ∀ v v', R key v v' → P v v') :
    List.Forall₂ P (valuesOf keys entries) (valuesOf keys entries') := by
  have hkept := h.filter (p := (·.1 ∈ keys)) (q := (·.1 ∈ keys)) fun e e' he => by rw [he.1]
  have hmem : ∀ e ∈ entries.filter (·.1 ∈ keys), ∀ e', SameKey R e e' → P e.2 e'.2 :=
    fun e he e' hee' => hP e.1 (by simpa using (List.mem_filter.1 he).2) e.2 e'.2 hee'.2
  rw [valuesOf, valuesOf, List.forall₂_map_left_iff, List.forall₂_map_right_iff]
  exact hkept.imp_of_mem hmem

theorem perm_valuesOf (h : entries.Perm entries') :
    (valuesOf keys entries).Perm (valuesOf keys entries') :=
  (h.filter _).map _

/-- A key that stands at most once has the same value in another order. -/
theorem Reordered.forall₂_values {P : Node → Node → Prop}
    (h : Reordered (SameKey R) entries entries') (honce : (valuesOf keys entries).length ≤ 1)
    (hP : ∀ key ∈ keys, ∀ v v', R key v v' → P v v') :
    List.Forall₂ P (valuesOf keys entries) (valuesOf keys entries') := by
  obtain ⟨zs, hperm, hrel⟩ := h
  have hvalues : (valuesOf keys entries).Perm (valuesOf keys zs) := perm_valuesOf hperm
  have hsame : valuesOf keys zs = valuesOf keys entries := by
    match hv : valuesOf keys entries, honce with
    | [], _ => exact List.nil_perm.1 (hv ▸ hvalues)
    | [v], _ => exact (List.singleton_perm.1 (hv ▸ hvalues)).symm
  rw [← hsame]
  exact forall₂_valuesOf hrel hP

theorem Reordered.length_values (h : Reordered (SameKey R) entries entries') :
    (valuesOf keys entries').length = (valuesOf keys entries).length := by
  obtain ⟨zs, hperm, hrel⟩ := h
  have hvalues : List.Forall₂ (fun _ _ => True) (valuesOf keys zs) (valuesOf keys entries') :=
    forall₂_valuesOf hrel fun _ _ _ _ _ => trivial
  rw [← hvalues.length_eq, (perm_valuesOf hperm).length_eq]

theorem length_valuesOf :
    (valuesOf keys entries).length = (entries.map (·.1)).countP (· ∈ keys) := by
  rw [valuesOf, List.length_map, ← List.countP_eq_length_filter, List.countP_map]
  rfl

/-- Keys of which only one occurs, and that one once, have at most one value. -/
theorem length_valuesOf_le (h : (entries.map (·.1)).Nodup)
    (hone : ∀ key ∈ entries.map (·.1), key ∈ keys → key = a) :
    (valuesOf keys entries).length ≤ 1 :=
  calc (valuesOf keys entries).length
    _ = (entries.map (·.1)).countP (· ∈ keys) := length_valuesOf
    _ ≤ (entries.map (·.1)).count a := List.countP_mono_left fun key hkey hk => by
      simpa using hone key hkey (by simpa using hk)
    _ ≤ 1 := List.nodup_iff_count_le_one.1 h a

end

/-! ## Objects in another order -/

/-- A delay is not given under both of its names. -/
def Source.HasOneDelay (src : Source) (object : Node) : Prop :=
  ¬("baseDelay" ∈ (src.entries object).map (·.1) ∧
    "initialDelay" ∈ (src.entries object).map (·.1))

instance (src : Source) (object : Node) : Decidable (src.HasOneDelay object) :=
  inferInstanceAs (Decidable (¬(_ ∧ _)))

/-- Two object literals with the same keys in some order, each of them once, and related values. -/
@[mk_iff]
structure Node.Shuffled (s s' : Source) (R : String → Node → Node → Prop) (o o' : Node) : Prop where
  kind : o.kind = .object
  kind' : o'.kind = .object
  nodup : ((s.entries o).map (·.1)).Nodup
  reordered : Reordered (SameKey R) (s.entries o) (s'.entries o')

instance (s s' : Source) (R : String → Node → Node → Prop) [∀ key v v', Decidable (R key v v')]
    (o o' : Node) : Decidable (Node.Shuffled s s' R o o') :=
  decidable_of_iff' _ (Node.shuffled_iff ..)

namespace Node.Shuffled

variable {s s' : Source} {R : String → Node → Node → Prop} {o o' : Node} {key : String}
  {P : Node → Node → Prop}

/-- A key has at most one value, which is the same in both objects. -/
theorem values (h : Shuffled s s' R o o') (hP : ∀ v v', R key v v' → P v v') :
    List.Forall₂ P (s.values o [key]) (s'.values o' [key]) := by
  refine h.reordered.forall₂_values (length_valuesOf_le (a := key) h.nodup ?_) ?_
  · exact fun name _ hname => List.mem_singleton.1 hname
  · simpa using hP

theorem property? (h : Shuffled s s' R o o') (hP : ∀ v v', R key v v' → P v v') :
    Option.Rel P (s.property? o key) (s'.property? o' key) := by
  rw [Source.property?_eq_head?, Source.property?_eq_head?]
  exact (h.values hP).head?

/-- The delay has at most one value. -/
theorem delays (h : Shuffled s s' R o o') (hdelay : s.HasOneDelay o)
    (hP : ∀ key ∈ ["baseDelay", "initialDelay"], ∀ v v', R key v v' → P v v') :
    List.Forall₂ P (s.values o ["baseDelay", "initialDelay"])
      (s'.values o' ["baseDelay", "initialDelay"]) := by
  refine h.reordered.forall₂_values ?_ hP
  by_cases hbase : "baseDelay" ∈ (s.entries o).map (·.1)
  · exact length_valuesOf_le (a := "baseDelay") h.nodup (by grind [Source.HasOneDelay])
  · exact length_valuesOf_le (a := "initialDelay") h.nodup (by grind)

theorem retry? (h : Shuffled s s' R o o') (hdelay : s.HasOneDelay o)
    (hP : ∀ key ∈ Retry.keys, ∀ v v', R key v v' → Alike s s' v v') :
    Retry.read? s' o' = Retry.read? s o := by
  have hempty : s'.values o' Retry.keys = [] ↔ s.values o Retry.keys = [] := by
    rw [← List.length_eq_zero_iff, ← List.length_eq_zero_iff, Source.values, Source.values,
      h.reordered.length_values]
  have hlast {key : String} (hkey : key ∈ Retry.keys) : Option.Rel (Alike s s')
      (s.values o [key]).getLast? (s'.values o' [key]).getLast? :=
    (h.values (hP key hkey)).getLast?
  have hsubset : ["baseDelay", "initialDelay"] ⊆ Retry.keys := by decide
  have hdelays := (h.delays hdelay fun key hkey => hP key (hsubset hkey)).getLast?
  have hvalues : Retry.ofValues s' (s'.values o') = Retry.ofValues s (s.values o) := by
    ext1
    · exact (hlast (by decide)).map_eq fun _ _ hv => hv.unwrap.numeric
    · exact (hlast (by decide)).map_eq fun _ _ hv => hv.unwrap.staticString
    · exact hdelays.map_eq fun _ _ hv => hv.unwrap.numeric
    · exact (hlast (by decide)).map_eq fun _ _ hv => hv.unwrap.numeric
  simp only [Retry.read?_eq, hempty, hvalues]

theorem timeout? (h : Shuffled s s' R o o') (hP : ∀ v v', R "ms" v v' → Alike s s' v v') :
    Timeout.read? s' o' = Timeout.read? s o :=
  (h.property? hP).map_eq fun _ _ hv => by rw [hv.unwrap.numeric]

end Node.Shuffled

/-! ## Options in another order -/

namespace Node

/-- Values of an option that differ at most in the order of the settings in a nested `retry` or
`timeout`. -/
def SameOption (s s' : Source) (key : String) (v v' : Node) : Prop :=
  Alike s s' v v' ∨ Shuffled s s' (fun _ => Alike s s') v.unwrap v'.unwrap ∧
    (key = "retry" ∧ s.HasOneDelay v.unwrap ∨ key = "timeout")

instance (s s' : Source) (key : String) (v v' : Node) : Decidable (SameOption s s' key v v') :=
  inferInstanceAs (Decidable (_ ∨ _ ∧ (_ ∧ _ ∨ _)))

/-- Two object literals that give the same options in some order, each of them once. -/
@[mk_iff]
structure SameOptions (s s' : Source) (o o' : Node) : Prop extends
    Shuffled s s' (SameOption s s') o o' where
  delay : s.HasOneDelay o

instance (s s' : Source) (o o' : Node) : Decidable (SameOptions s s' o o') :=
  decidable_of_iff' _ (sameOptions_iff ..)

namespace SameOption

variable {s s' : Source} {key : String} {v v' : Node}

/-- Only a `retry` and a `timeout` have settings of their own. -/
theorem alike (h : SameOption s s' key v v') (hkey : key ∉ ["retry", "timeout"]) :
    Alike s s' v v' := by
  rcases h with h | ⟨-, ⟨rfl, -⟩ | rfl⟩
  · exact h
  · exact absurd (by decide) hkey
  · exact absurd (by decide) hkey

theorem kind (h : SameOption s s' key v v') : v'.unwrap.kind = v.unwrap.kind := by
  rcases h with h | ⟨h, -⟩
  · exact h.unwrap.kind
  · rw [h.kind, h.kind']

theorem numeric (h : SameOption s s' key v v') : s'.numeric v'.unwrap = s.numeric v.unwrap := by
  rcases h with h | ⟨h, -⟩
  · exact h.unwrap.numeric
  · rw [Source.numeric, Source.numeric]
    simp [h.kind, h.kind']

theorem keepsOption (h : SameOption s s' key v v') :
    Stream.keepsOption v' = Stream.keepsOption v := by
  simp only [Stream.keepsOption, Node.isFunctionLiteral, h.kind]

theorem tellsRetry (h : SameOption s s' key v v') :
    StepSettings.tellsRetry v' = StepSettings.tellsRetry v := by
  simp only [StepSettings.tellsRetry, h.kind]

theorem retryOf (h : SameOption s s' "retry" v v') :
    StepSettings.retryOf s' v' = StepSettings.retryOf s v := by
  have hread : Retry.read? s' v'.unwrap = Retry.read? s v.unwrap := by
    rcases h with h | ⟨h, ⟨-, hdelay⟩ | htimeout⟩
    · exact h.unwrap.retry?
    · exact h.retry? hdelay fun _ _ _ _ hv => hv
    · contradiction
  simp only [StepSettings.retryOf, h.kind, h.numeric, hread]

theorem timeoutOf (h : SameOption s s' "timeout" v v') :
    StepSettings.timeoutOf s' v' = StepSettings.timeoutOf s v := by
  have hread : Timeout.read? s' v'.unwrap = Timeout.read? s v.unwrap := by
    rcases h with h | ⟨h, -⟩
    · exact h.unwrap.timeout?
    · exact h.timeout? fun _ _ hv => hv
  simp only [StepSettings.timeoutOf, h.kind, h.numeric, hread]

end SameOption

namespace SameOptions

variable {s s' : Source} {o o' : Node}

theorem optionValues (h : SameOptions s s' o o') (key : String) :
    List.Forall₂ (SameOption s s' key) (s.values o [key]) (s'.values o' [key]) :=
  h.values fun _ _ hv => hv

theorem last (h : SameOptions s s' o o') (key : String) :
    Option.Rel (SameOption s s' key) (s.values o [key]).getLast? (s'.values o' [key]).getLast? :=
  (h.optionValues key).getLast?

theorem retry? (h : SameOptions s s' o o') : Retry.read? s' o' = Retry.read? s o := by
  have hkeys : ∀ key ∈ Retry.keys, key ∉ ["retry", "timeout"] := by decide
  exact h.toShuffled.retry? h.delay fun key hkey _ _ hv => hv.alike (hkeys key hkey)

theorem timeout? (h : SameOptions s s' o o') : Timeout.read? s' o' = Timeout.read? s o :=
  h.toShuffled.timeout? fun _ _ hv => hv.alike (by decide)

theorem settings (h : SameOptions s s' o o') : StepSettings.read s' o' = StepSettings.read s o := by
  rw [StepSettings.read_eq, StepSettings.read_eq]
  ext1
  · exact (h.last "key").map_eq fun _ _ hv => (hv.alike (by decide)).unwrap.staticString
  · exact (h.last "name").map_eq fun _ _ hv => (hv.alike (by decide)).unwrap.staticString
  · exact (h.last "description").bind_eq fun _ _ hv => (hv.alike (by decide)).unwrap.stringLiteral?
  · exact (h.last "markdown").bind_eq fun _ _ hv => (hv.alike (by decide)).unwrap.stringLiteral?
  · have hvalues := (h.optionValues "retry").filter fun _ _ hv => hv.tellsRetry
    exact hvalues.getLast?.map_eq fun _ _ hv => hv.retryOf
  · exact (h.last "timeout").map_eq fun _ _ hv => hv.timeoutOf

end SameOptions

/-- Two object literals that are alike or give the same options in some order. -/
def SameObject (s s' : Source) (o o' : Node) : Prop := Alike s s' o o' ∨ SameOptions s s' o o'

namespace SameObject

variable {s s' : Source} {o o' : Node} {x x' : Option Node}

theorem kind (h : SameObject s s' o o') : o'.kind = o.kind := by
  rcases h with h | h
  · exact h.kind
  · rw [h.kind, h.kind']

theorem optionValues (h : SameObject s s' o o') (key : String) :
    List.Forall₂ (SameOption s s' key) (s.values o [key]) (s'.values o' [key]) := by
  rcases h with h | h
  · exact forall₂_valuesOf (R := fun _ => Alike s s') h.entries fun _ _ _ _ hv => .inl hv
  · exact h.optionValues key

theorem property? (h : SameObject s s' o o') (key : String) :
    Option.Rel (SameOption s s' key) (s.property? o key) (s'.property? o' key) := by
  rw [Source.property?_eq_head?, Source.property?_eq_head?]
  exact (h.optionValues key).head?

theorem retry? (h : SameObject s s' o o') : Retry.read? s' o' = Retry.read? s o :=
  h.elim Alike.retry? SameOptions.retry?

theorem timeout? (h : SameObject s s' o o') : Timeout.read? s' o' = Timeout.read? s o :=
  h.elim Alike.timeout? SameOptions.timeout?

theorem ofOptions (h : Option.Rel (SameObject s s') x x') :
    StepSettings.ofOptions s' x' = StepSettings.ofOptions s x := by
  have hread : x'.map (StepSettings.read s') = x.map (StepSettings.read s) :=
    h.map_eq fun o o' ho => ho.elim (fun ho => Alike.ofOptions (.some ho)) SameOptions.settings
  rw [StepSettings.ofOptions, hread, StepSettings.ofOptions]

theorem withRetry (h : Option.Rel (SameObject s s') x x') :
    StepSettings.withRetry s' x' = StepSettings.withRetry s x := by
  simp only [StepSettings.withRetry, ofOptions h, h.bind_eq fun _ _ ho => ho.retry?]

theorem withTimeout (h : Option.Rel (SameObject s s') x x') :
    StepSettings.withTimeout s' x' = StepSettings.withTimeout s x := by
  simp only [StepSettings.withTimeout, ofOptions h, h.bind_eq fun _ _ ho => ho.timeout?]

/-- Objects that give the same options one by one make the same of a stream. -/
theorem stream {os os' : List Node} (h : List.Forall₂ (SameObject s s') os os')
    (kind : StreamKind) : Stream.ofEntries s' kind (os'.flatMap s'.entries) =
      Stream.ofEntries s kind (os.flatMap s.entries) := by
  have hvalues (key : String) : List.Forall₂ (SameOption s s' key)
      (valuesOf [key] (os.flatMap s.entries)) (valuesOf [key] (os'.flatMap s'.entries)) := by
    rw [valuesOf_flatMap, valuesOf_flatMap]
    exact List.rel_flatMap h fun o o' ho => ho.optionValues key
  ext1
  · rw [Stream.kind_ofEntries, Stream.kind_ofEntries]
  · rw [Stream.channel_ofEntries, Stream.channel_ofEntries]
    exact (hvalues "namespace").getLast?.map_eq fun _ _ hv =>
      (hv.alike (by decide)).unwrap.staticString
  · refine (Stream.sorted_options_ofEntries _ _ _).ext (Stream.sorted_options_ofEntries _ _ _)
      fun key => ?_
    have hkept := ((hvalues key).filter fun _ _ hv => hv.keepsOption).getLast?
    simp only [Stream.lookup_options_ofEntries, hkept.map_eq fun _ _ hv => hv.numeric]

end SameObject

/-! ## Calls with options in another order -/

/-- Two arguments of calls that are alike or give the same options in some order. -/
def SameArgument (s s' : Source) (a a' : Node) : Prop :=
  Alike s s' a a' ∨ SameOptions s s' a.unwrap a'.unwrap

instance (s s' : Source) (a a' : Node) : Decidable (SameArgument s s' a a') :=
  inferInstanceAs (Decidable (_ ∨ _))

/-- Two calls that differ at most in the order of options. -/
structure SameCall (s s' : Source) (call call' : Node) : Prop where
  kind : call.kind = .callExpression
  kind' : call'.kind = .callExpression
  function : Option.Rel (Alike s s') (call.child? .function) (call'.child? .function)
  arguments : List.Forall₂ (SameArgument s s') call.callArguments call'.callArguments

namespace SameArgument

variable {s s' : Source} {a a' : Node}

theorem unwrap (h : SameArgument s s' a a') : SameObject s s' a.unwrap a'.unwrap :=
  h.imp Alike.unwrap id

/-- An object literal is no string. -/
theorem not_named (h : a.unwrap.kind = .object) :
    ¬(a.kind = .string ∨ a.kind = .templateString) := by
  intro hs
  have htransparent : a.kind.isTransparent = false := by rcases hs with hs | hs <;> rw [hs] <;> rfl
  rw [unwrap_of_not_transparent htransparent] at h
  simp [h] at hs

theorem named_iff (h : SameArgument s s' a a') :
    (a'.kind = .string ∨ a'.kind = .templateString) ↔
      (a.kind = .string ∨ a.kind = .templateString) := by
  rcases h with h | h
  · rw [h.kind]
  · exact iff_of_false (not_named h.kind') (not_named h.kind)

/-- The name that leads the arguments of a step, and its options. -/
theorem ofList {xs xs' : List Node} (h : List.Forall₂ (SameArgument s s') xs xs') :
    Option.Rel (Alike s s') (StepArguments.ofList xs).id (StepArguments.ofList xs').id ∧
      Option.Rel (SameObject s s') (StepArguments.ofList xs).options
        (StepArguments.ofList xs').options := by
  obtain ⟨id, id', rest, rest', hx, hx', hid, hrest⟩ :=
    StepArguments.ofList_rel (fun a a' ha => ha.named_iff) h
  rw [hx, hx']
  constructor
  · refine hid.imp fun a a' ⟨ha, hs⟩ => ?_
    rcases ha with ha | ha
    · exact ha
    · exact absurd hs (not_named ha.kind)
  · exact ((hrest.getElem? 1).map fun _ _ ha => ha.unwrap).filter fun _ _ ho => by rw [ho.kind]

end SameArgument

end Node

/-! ## Steps and streams -/

/-- Leaves that are emitted as one step or stream. -/
def Leaf.isWork : Leaf → Bool
  | .step .. | .sagaStep .. | .stream _ => true
  | _ => false

/-- Both outlines are the same step or stream, read from any nodes. -/
def Outline.SameWork (os os' : List Outline) : Prop :=
  ∃ (n n' : Node) (leaf : Leaf), leaf.isWork ∧ os = [.leaf n leaf] ∧ os' = [.leaf n' leaf]

/-- Two steps or streams that differ at most in their identifiers and locations. -/
inductive Flow.SameWork : Flow → Flow → Prop
  | step (id id' : Id) (name key : Option String) (place place' : Option Location) (s : Step) :
    SameWork (.step ⟨id, name, key, place⟩ s) (.step ⟨id', name, key, place'⟩ s)
  | sagaStep (id id' : Id) (name key : Option String) (place place' : Option Location)
    (s : SagaStep) :
    SameWork (.sagaStep ⟨id, name, key, place⟩ s) (.sagaStep ⟨id', name, key, place'⟩ s)
  | stream (id id' : Id) (name key : Option String) (place place' : Option Location) (s : Stream) :
    SameWork (.stream ⟨id, name, key, place⟩ s) (.stream ⟨id', name, key, place'⟩ s)

theorem Emitter.sameWork {os os' : List Outline} (h : Outline.SameWork os os') (e e' : Emitter)
    (l l' : Ledger) : ∃ f f', ((e.outlines os).run l).1 = [f] ∧
      ((e'.outlines os').run l').1 = [f'] ∧ f.SameWork f' := by
  obtain ⟨n, n', leaf, hwork, rfl, rfl⟩ := h
  cases leaf with
  | step => exact ⟨_, _, rfl, rfl, .step ..⟩
  | sagaStep => exact ⟨_, _, rfl, rfl, .sagaStep ..⟩
  | stream => exact ⟨_, _, rfl, rfl, .stream ..⟩
  | workflowRef | unknown => contradiction

namespace Node.SameCall

variable {r : Reader} {s' : Source} {call call' : Node} (h : SameCall r.source s' call call')

include h

theorem stepName? (settings : StepSettings) :
    (r.within s').stepName? settings (StepArguments.ofList call'.callArguments) =
      r.stepName? settings (StepArguments.ofList call.callArguments) :=
  congrArg (settings.name <|> ·)
    ((SameArgument.ofList h.arguments).1.map_eq fun _ _ ha => ha.staticString)

theorem stream (kind : StreamKind) :
    Outline.SameWork [r.stream call kind] [(r.within s').stream call' kind] := by
  have hobjects := (List.rel_map (fun _ _ ha => ha.unwrap) h.arguments).filter
    (p := (·.kind == .object)) (q := (·.kind == .object)) fun _ _ ho => by rw [ho.kind]
  have hstream := SameObject.stream hobjects kind
  exact ⟨call, call', .stream (.ofEntries ..), rfl, rfl,
    congrArg (fun s => [Outline.leaf call' (.stream s)]) hstream⟩

variable (hoperation : Option.Rel (Alike r.source s')
  (StepArguments.ofList call.callArguments).operation
  (StepArguments.ofList call'.callArguments).operation)

include hoperation

omit h in
theorem operationName :
    (r.within s').operationName (StepArguments.ofList call'.callArguments) =
      r.operationName (StepArguments.ofList call.callArguments) :=
  congrArg (Option.getD · dynamicText) (hoperation.map_eq fun _ _ ha => ha.operationCallee)

theorem step {settings : Source → Option Node → StepSettings}
    (hsettings : ∀ {x x'}, Option.Rel (SameObject r.source s') x x' →
      settings s' x' = settings r.source x) :
    Outline.SameWork [r.step call settings] [(r.within s').step call' settings] := by
  have hoptions := hsettings (SameArgument.ofList h.arguments).2
  refine ⟨call, call', _, ?_, rfl, ?_⟩
  · rfl
  · simp only [Reader.step, Reader.source_within, hoptions, h.stepName?, operationName hoperation]

theorem sagaStep (tryStep : Bool) :
    Outline.SameWork [r.sagaStep call tryStep] [(r.within s').sagaStep call' tryStep] := by
  have hoptions := (SameArgument.ofList h.arguments).2
  have hcompensation : Option.Rel (Alike r.source s')
      ((StepArguments.ofList call.callArguments).options.bind (r.source.property? · "compensate"))
      ((StepArguments.ofList call'.callArguments).options.bind (s'.property? · "compensate")) :=
    hoptions.bind fun _ _ ho => (ho.property? "compensate").imp fun _ _ hv => hv.alike (by decide)
  refine ⟨call, call', _, ?_, rfl, ?_⟩
  · rfl
  · simp only [Reader.sagaStep, Reader.source_within, SameObject.ofOptions hoptions, h.stepName?,
      operationName hoperation, hcompensation.isSome_eq,
      hcompensation.map_eq fun _ _ hc => hc.operationCallee]

end Node.SameCall

namespace CallShape

/-- Calls that run an operation as a step. -/
def runsOperation : CallShape → Bool
  | .step | .method .retry | .method .withTimeout | .sagaStep _ => true
  | _ => false

/-- Calls that are read as one step or stream. -/
def isWork (shape : CallShape) : Bool :=
  shape.runsOperation || shape matches .method (.stream _)

end CallShape

namespace Reader

variable {r : Reader} {s' : Source} {call call' : Node} {shape : CallShape}

theorem sameWork_call (h : Node.SameCall r.source s' call call') (hwork : shape.isWork)
    (hoperation : shape.runsOperation → Option.Rel (Node.Alike r.source s')
      (StepArguments.ofList call.callArguments).operation
      (StepArguments.ofList call'.callArguments).operation) :
    Outline.SameWork (r.call shape call) ((r.within s').call shape call') := by
  match shape with
  | .step =>
    rw [Reader.call, Reader.call]
    exact h.step (hoperation rfl) Node.SameObject.ofOptions
  | .method .retry =>
    rw [Reader.call, Reader.call]
    exact h.step (hoperation rfl) Node.SameObject.withRetry
  | .method .withTimeout =>
    rw [Reader.call, Reader.call]
    exact h.step (hoperation rfl) Node.SameObject.withTimeout
  | .method (.stream kind) =>
    rw [Reader.call, Reader.call]
    exact h.stream kind
  | .sagaStep tryStep =>
    rw [Reader.call, Reader.call]
    exact h.sagaStep (hoperation rfl) tryStep

theorem isToldByCallback_of_isWork (h : shape.isWork) : shape.isToldByCallback = false := by
  cases shape with
  | iteration | workflowRef => contradiction
  | step | method | helper | sagaStep => rfl

/-- Options of which none is given twice say the same in any order: settings, retries and timeouts
are read alike, and calls that differ in that order only are emitted as the same step or stream. The
operation of a step is not among its options, even if it is an object literal. -/
theorem option_order_does_not_matter (r : Reader) (s' : Source) :
    (∀ o o', Node.SameOptions r.source s' o o' →
      StepSettings.read s' o' = StepSettings.read r.source o ∧
      Retry.read? s' o' = Retry.read? r.source o ∧
      Timeout.read? s' o' = Timeout.read? r.source o) ∧
    ∀ call call' shape, Node.SameCall r.source s' call call' → r.classify call = some shape →
      shape.isWork →
      (shape.runsOperation → Option.Rel (Node.Alike r.source s')
        (StepArguments.ofList call.callArguments).operation
        (StepArguments.ofList call'.callArguments).operation) →
      (r.within s').classify call' = some shape ∧
      ∀ (e e' : Emitter) (l l' : Ledger), ∃ f f',
        ((e.outlines (r.expression call)).run l).1 = [f] ∧
        ((e'.outlines ((r.within s').expression call')).run l').1 = [f'] ∧ f.SameWork f' := by
  refine ⟨fun o o' h => ⟨h.settings, h.retry?, h.timeout?⟩, ?_⟩
  intro call call' shape h hshape hwork hoperation
  have hshape' := classify_of_function h.function hshape (isToldByCallback_of_isWork hwork)
  refine ⟨hshape', fun e e' l l' => ?_⟩
  rw [expression_call h.kind hshape, expression_call h.kind' hshape']
  exact e.sameWork (sameWork_call h hwork hoperation) e' l l'

end Reader

namespace Sample

def orderSource : Source :=
  .ofString "sample.ts" "s.retry(f,\x7bkey:\"k\",retry:\x7battempts:2,maxDelay:5\x7d,attempts:3\x7d)"

def orderSource' : Source :=
  .ofString "sample.ts" "s.retry(f,\x7battempts:3,retry:\x7bmaxDelay:5,attempts:2\x7d,key:\"k\"\x7d)"

def orderReader : Reader := ⟨orderSource, {}, { step := some "s" }⟩

/-- A string of one letter. -/
def letter (start : Nat) : Node :=
  part .string start (start + 3) [
    token "\"" start, part (.other "string_fragment") (start + 1) (start + 2) [],
    token "\"" (start + 2)]

/-- A call of `s.retry` with the operation `f` and options. -/
def retryCall (options : Node) : Node :=
  part .callExpression 0 (options.stop + 1) [
    role .function .memberExpression 0 7 [
      role .object .identifier 0 1 [], token "." 1,
      role .property (.other "property_identifier") 2 7 []],
    role .arguments .arguments 7 (options.stop + 1) [
      token "(" 7, part .identifier 8 9 [], token "," 9, options, token ")" options.stop]]

def orderOptions : Node :=
  objectOf (entryOf "key" (letter 15))
    [entryOf "retry" (objectOf (entryOf "attempts" (digit 35)) [entryOf "maxDelay" (digit 46)]),
     entryOf "attempts" (digit 58)]

def orderOptions' : Node :=
  objectOf (entryOf "attempts" (digit 20))
    [entryOf "retry" (objectOf (entryOf "maxDelay" (digit 38)) [entryOf "attempts" (digit 49)]),
     entryOf "key" (letter 56)]

end Sample

namespace Reader

theorem option_order_does_not_matter_retry :
    let call := Sample.retryCall Sample.orderOptions
    let call' := Sample.retryCall Sample.orderOptions'
    let reader' := Sample.orderReader.within Sample.orderSource'
    Node.SameOptions Sample.orderSource Sample.orderSource' Sample.orderOptions
        Sample.orderOptions' ∧
      Retry.read? Sample.orderSource' Sample.orderOptions' =
        Retry.read? Sample.orderSource Sample.orderOptions ∧
      Node.SameCall Sample.orderSource Sample.orderSource' call call' ∧
      reader'.classify call' = some (.method .retry) ∧
      ∀ (e e' : Emitter) (l l' : Ledger), ∃ f f',
        ((e.outlines (Sample.orderReader.expression call)).run l).1 = [f] ∧
        ((e'.outlines (reader'.expression call')).run l').1 = [f'] ∧ f.SameWork f' := by
  intro call call' reader'
  have hoptions : Node.SameOptions Sample.orderSource Sample.orderSource' Sample.orderOptions
      Sample.orderOptions' := by
    decide +kernel
  have hfunction : Option.Rel (Node.Alike Sample.orderSource Sample.orderSource')
      (call.child? .function) (call'.child? .function) :=
    .some (by decide +kernel)
  have harguments : List.Forall₂ (Node.SameArgument Sample.orderSource Sample.orderSource')
      call.callArguments call'.callArguments := by
    decide +kernel
  have hoperation : Option.Rel (Node.Alike Sample.orderSource Sample.orderSource')
      (StepArguments.ofList call.callArguments).operation
      (StepArguments.ofList call'.callArguments).operation :=
    .some (by decide +kernel)
  have hshape : Sample.orderReader.classify call = some (.method .retry) := by decide +kernel
  have hcall : Node.SameCall Sample.orderSource Sample.orderSource' call call' :=
    ⟨rfl, rfl, hfunction, harguments⟩
  obtain ⟨hread, hnodes⟩ := option_order_does_not_matter Sample.orderReader Sample.orderSource'
  exact ⟨hoptions, (hread _ _ hoptions).2.1, hcall,
    hnodes call call' _ hcall hshape rfl fun _ => hoperation⟩

end Reader

end FlowShape
