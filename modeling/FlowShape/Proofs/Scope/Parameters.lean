import FlowShape.Proofs.Scope.Declaration
import FlowShape.Proofs.Tree.Moves

/-!
# Names of capabilities are in scope

The name of a capability is taken from the first parameter of a callback, by a reading of patterns
of its own: plain, by a key, under another name, with a default value. The scopes around a site read
patterns in another way. The two readings agree: each name that is taken from a callback is bound by
its parameters, and so it is in scope all over its body.
-/

namespace FlowShape

/-- The names by which the steps of a saga are known. -/
def SagaBinding.names : SagaBinding → List String
  | .member object => [object]
  | .destructured step tryStep => step.toList ++ tryStep.toList

namespace Source

variable {src : Source} {key name : String} {f : Node}

/-- What the grammar says about the nodes of a function, as far as its parameters go: there is also
no program in a function. -/
structure ReadsParameters (src : Source) (n : Node) : Prop extends src.NamesParameters n where
  inner : n.kind ≠ .program

instance (src : Source) (n : Node) : Decidable (src.ReadsParameters n) :=
  decidable_of_iff (src.NamesParameters n ∧ n.kind ≠ .program)
    ⟨fun ⟨names, inner⟩ => ⟨names, inner⟩, fun h => ⟨h.toNamesParameters, h.inner⟩⟩

/-- A name that is taken from a callback: that of a key, or one by which the steps of a saga are
known. -/
inductive TakesName (src : Source) (key name : String) (callback : Node) : Prop
  | capability {binding : ParameterBinding} : src.parameterBinding? callback key = some binding →
      binding.name = name → src.TakesName key name callback
  | saga {binding : SagaBinding} : src.sagaBinding? callback = some binding →
      name ∈ binding.names → src.TakesName key name callback

/-- The steps of a saga are known by names that the parameters give to two keys. -/
theorem exists_of_sagaBinding? {binding : SagaBinding} (h : src.sagaBinding? f = some binding)
    (hname : name ∈ binding.names) :
    ∃ key ∈ ["step", "tryStep"], ∃ b, src.parameterBinding? f key = some b ∧ b.name = name := by
  obtain ⟨pattern, hpattern, h⟩ := Option.bind_eq_some_iff.1 h
  split at h
  · next hkind =>
    obtain rfl := Option.some.inj h
    obtain rfl := List.mem_singleton.1 hname
    refine ⟨"step", by simp, .plain (src.text pattern), ?_, rfl⟩
    simp [parameterBinding?, hpattern, hkind]
  · next hkind =>
    obtain rfl := Option.some.inj h
    have hentry {key : String} (h : src.destructuredAlias? pattern key = some name) :
        src.parameterBinding? f key = some (.entry name) := by
      simp [parameterBinding?, hpattern, hkind, h]
    rcases List.mem_append.1 hname with hname | hname
    · exact ⟨"step", by simp, _, hentry (Option.mem_toList.1 hname), rfl⟩
    · exact ⟨"tryStep", by simp, _, hentry (Option.mem_toList.1 hname), rfl⟩
  · cases h

theorem TakesName.parametersBind (hgrammar : ∀ n ∈ f.nodes, src.ReadsParameters n)
    (hkey : Text.opensPattern key = false) (h : src.TakesName key name f) :
    src.ParametersBind name f := by
  have hnames : ∀ n ∈ f.nodes, src.NamesParameters n := fun n hn =>
    (hgrammar n hn).toNamesParameters
  have hbinds {key : String} (hkey : Text.opensPattern key = false) {b : ParameterBinding}
      (h : src.parameterBinding? f key = some b) : src.ParametersBind b.name f :=
    parametersBind_of_parameterBinding? hnames hkey h
  cases h with
  | capability h hname => exact hname ▸ hbinds hkey h
  | saga h hname =>
    obtain ⟨key, hmem, b, hb, rfl⟩ := exists_of_sagaBinding? h hname
    have hplain : ∀ key ∈ ["step", "tryStep"], Text.opensPattern key = false := by decide
    exact hbinds (hplain key hmem) hb

/-- What a function binds is bound at all sites in its body. -/
theorem isBound_of_functionBinds {f body site : Site} (hliteral : f.node.isFunctionLiteral)
    (hinner : ∀ n ∈ f.node.nodes, n.kind ≠ .program) (h : src.functionBinds name f.node)
    (hbody : f.child? .body = some body) (hsite : body.Holds site) : src.isBound name site := by
  obtain ⟨i, c, -, hc, rfl⟩ := Site.findChild?_eq_some_iff.1 hbody
  -- the way up from the site meets the function before it can meet a program
  obtain ⟨inner, habove, hparents⟩ := hsite.exists_above_eq
  rw [isBound, boundAbove_iff]
  refine ⟨inner, ⟨f.node, i⟩, f.above, habove, fun frame hframe => ?_, ?_⟩
  · apply hinner
    exact Node.mem_nodes_of_mem_children (List.mem_of_getElem? hc) (hparents frame hframe)
  · rwa [scopeBinds_of_isFunctionScope (Kind.isFunctionScope_of_isFunctionLiteral hliteral)]

/-- The names that are taken from a callback are bound by its parameters, so they are bound at all
sites in its body. -/
theorem names_from_callbacks_are_in_scope (src : Source) {f : Site} {key name : String}
    (hliteral : f.node.isFunctionLiteral)
    (hgrammar : ∀ n ∈ f.node.nodes, src.ReadsParameters n)
    (hkey : Text.opensPattern key = false) (h : src.TakesName key name f.node) :
    src.ParametersBind name f.node ∧
      ∀ body site, f.child? .body = some body → body.Holds site → src.isBound name site := by
  have hbinds := h.parametersBind hgrammar hkey
  refine ⟨hbinds, fun body site hbody hsite => ?_⟩
  exact isBound_of_functionBinds hliteral (fun n hn => (hgrammar n hn).inner)
    hbinds.functionBinds hbody hsite

end Source

namespace Sample

def apartSource : Source := .ofString "sample.ts" "(\x7b step: s = d, tryStep \x7d) => s(a)"

def apartFunction : Node :=
  part .arrowFunction 0 34 [
    role .parameters .formalParameters 0 26 [
      token "(" 0,
      part .requiredParameter 1 25 [
        role .pattern .objectPattern 1 25 [
          token "\x7b" 1,
          part .pairPattern 3 14 [
            role .key (.other "property_identifier") 3 7 [], token ":" 7,
            role .value .assignmentPattern 9 14 [
              role .left .identifier 9 10 [], token "=" 11, role .right .identifier 13 14 []]],
          token "," 14, part .shorthandPropertyIdentifierPattern 16 23 [], token "\x7d" 24]],
      token ")" 25],
    token "=>" 27,
    role .body .callExpression 30 34 [
      role .function .identifier 30 31 [],
      role .arguments .arguments 31 34 [
        token "(" 31, part .identifier 32 33 [], token ")" 33]]]

end Sample

namespace Source

/-- `({ step: s = d, tryStep }) => s(a)` takes the names `s` and `tryStep` from its parameter, and
both are bound in its body. -/
theorem names_from_callbacks_are_in_scope_apart :
    Sample.apartFunction.isFunctionLiteral ∧
    (∀ n ∈ Sample.apartFunction.nodes, Sample.apartSource.ReadsParameters n) ∧
    Text.opensPattern "step" = false ∧
    Sample.apartSource.parameterBinding? Sample.apartFunction "step" = some (.entry "s") ∧
    Sample.apartSource.sagaBinding? Sample.apartFunction =
      some (.destructured (some "s") (some "tryStep")) ∧
    Sample.apartSource.ParametersBind "s" Sample.apartFunction ∧
    ∃ body, (Site.root Sample.apartFunction).child? .body = some body ∧
      Sample.apartSource.isBound "s" body ∧ Sample.apartSource.isBound "tryStep" body := by
  obtain ⟨hgrammar, hstep, hsaga, hbody⟩ :
      (∀ n ∈ Sample.apartFunction.nodes, Sample.apartSource.ReadsParameters n) ∧
      Sample.apartSource.parameterBinding? Sample.apartFunction "step" = some (.entry "s") ∧
      Sample.apartSource.sagaBinding? Sample.apartFunction =
        some (.destructured (some "s") (some "tryStep")) ∧
      ((Site.root Sample.apartFunction).child? .body).isSome := by decide +kernel
  obtain ⟨body, hbody⟩ := Option.isSome_iff_exists.1 hbody
  have hkey : Text.opensPattern "step" = false := by decide
  have hmem : "tryStep" ∈ SagaBinding.names (.destructured (some "s") (some "tryStep")) := by decide
  obtain ⟨hbinds, hs⟩ := names_from_callbacks_are_in_scope Sample.apartSource
    (f := .root Sample.apartFunction) rfl hgrammar hkey (.capability hstep rfl)
  obtain ⟨-, htry⟩ := names_from_callbacks_are_in_scope Sample.apartSource
    (f := .root Sample.apartFunction) rfl hgrammar hkey (.saga hsaga hmem)
  exact ⟨rfl, hgrammar, hkey, hstep, hsaga, hbinds, body, hbody, hs body body hbody (.here body),
    htry body body hbody (.here body)⟩

end Source

end FlowShape
