import FlowShape.Entry.Discovery
import FlowShape.Proofs.Tree.Builder
import FlowShape.Proofs.Tree.Preorder

/-!
# Which calls are entry points

A call is an entry point if it calls, by a bare name, one of the library's functions: under a name
that a value import gives to it, or under its own name where no import is asked for. A call that
runs a workflow must also see the imported function and no declaration in between. Discovery finds
these calls and no others.
-/

namespace FlowShape

/-- The modules of the library: the main one, those below it and those in its scope. -/
def IsLibraryName (name : String) : Prop :=
  name = "awaitly" ∨ (∃ rest, name = "awaitly/" ++ rest) ∨ ∃ rest, name = "@awaitly/" ++ rest

theorem isPrefixOf_iff_exists_append {head name : String} :
    head.isPrefixOf name ↔ ∃ rest, name = head ++ rest := by
  rw [String.isPrefixOf, String.startsWith_string_iff]
  constructor
  · rintro ⟨rest, hrest⟩
    exact ⟨String.ofList rest, String.toList_injective (by simp [hrest])⟩
  · rintro ⟨rest, rfl⟩
    exact ⟨rest.toList, by simp⟩

theorem isLibraryModule_iff {name : String} : isLibraryModule name ↔ IsLibraryName name := by
  simp only [isLibraryModule, IsLibraryName, Bool.or_eq_true, beq_iff_eq,
    isPrefixOf_iff_exists_append, or_assoc]

namespace Node

/-- An import, or one of its names, is marked as one of types: the bare word `type` stands in it. -/
def IsTypeOnly (n : Node) : Prop :=
  ∃ word ∈ n.children, word.kind = .typeKeyword ∧ word.label.named = false

theorem hasTypeModifier_eq_false_iff {n : Node} : n.hasTypeModifier = false ↔ ¬n.IsTypeOnly := by
  rw [← Bool.not_eq_true, hasTypeModifier, List.any_eq_true, IsTypeOnly]
  simp only [Bool.and_eq_true, Bool.not_eq_true', beq_iff_eq, and_comm]

theorem mem_partsOf_iff {n c : Node} {kind : Kind} :
    c ∈ n.partsOf kind ↔ c ∈ n.parts ∧ c.kind = kind := by
  simp [partsOf]

end Node

namespace Source

/-- A statement imports values from the library. -/
structure ImportsValues (src : Source) (statement : Node) : Prop where
  kind : statement.kind = .importStatement
  notTypes : ¬statement.IsTypeOnly
  library : ∃ source name, statement.child? .source = some source ∧
    src.stringLiteral? source = some name ∧ IsLibraryName name

/-- An import at the top of a file gives a local name to the value of an export of the library. -/
inductive Imports (src : Source) (tree : Node) (exported : String) : String → Prop
  | specifier {statement clause names specifier name : Node} :
      statement ∈ tree.parts → src.ImportsValues statement →
      clause ∈ statement.parts → clause.kind = .importClause →
      names ∈ clause.parts → names.kind = .namedImports →
      specifier ∈ names.parts → specifier.kind = .importSpecifier → ¬specifier.IsTypeOnly →
      specifier.child? .name = some name → src.propertyKey name = exported →
      src.Imports tree exported (src.text ((specifier.child? .aliasName).getD name))

/-- A name calls the library's function that makes entry points of a kind: it is imported, or it is
the function's own name and no import is asked for. -/
def Calls (src : Source) (tree : Node) (assumeImported : Bool) (kind : EntryKind)
    (name : String) : Prop :=
  src.Imports tree kind.name name ∨ name = kind.name ∧ (kind.isDefinition ∨ assumeImported)

/-- The sites at which an entry point of a kind stands. -/
structure IsEntry (src : Source) (tree : Node) (assumeImported : Bool) (kind : EntryKind)
    (site : Site) : Prop where
  reached : (Site.root tree).Reaches site
  call : site.node.kind = .callExpression
  callee : ∃ function, site.node.child? .function = some function ∧ function.kind = .identifier ∧
    src.Calls tree assumeImported kind (src.text function) ∧
    (kind.isDefinition = false → src.isBound (src.text function) site = false)

variable {src : Source} {tree : Node} {assumeImported : Bool} {kind : EntryKind}

/-! ## Names -/

theorem isLibraryImport_iff {statement : Node} :
    src.isLibraryImport statement ↔ src.ImportsValues statement := by
  constructor
  · intro h
    simp only [isLibraryImport, Bool.and_eq_true, beq_iff_eq, Bool.not_eq_true',
      Option.getD_eq_iff, Option.map_eq_some_iff, Option.bind_eq_some_iff] at h
    obtain ⟨⟨hkind, htypes⟩, ⟨name, ⟨source, hsource, hname⟩, hlibrary⟩ | ⟨-, h⟩⟩ := h
    · exact ⟨hkind, Node.hasTypeModifier_eq_false_iff.1 htypes, source, name, hsource, hname,
        isLibraryModule_iff.1 hlibrary⟩
    · cases h
  · rintro ⟨hkind, htypes, source, name, hsource, hname, hlibrary⟩
    simp [isLibraryImport, hkind, Node.hasTypeModifier_eq_false_iff.2 htypes, hsource, hname,
      isLibraryModule_iff.2 hlibrary]

theorem localName?_eq_some_iff {exported : String} {specifier : Node} {found : String} :
    src.localName? exported specifier = some found ↔
      ∃ name, specifier.child? .name = some name ∧ ¬specifier.IsTypeOnly ∧
        src.propertyKey name = exported ∧
        src.text ((specifier.child? .aliasName).getD name) = found := by
  simp only [localName?, Option.bind_eq_bind, Option.bind_eq_some_iff, Bool.and_eq_true,
    Bool.not_eq_true', Node.hasTypeModifier_eq_false_iff, beq_iff_eq,
    Option.ite_none_right_eq_some, Option.some.injEq, and_assoc]

theorem mem_importedNames_iff {exported name : String} :
    name ∈ src.importedNames tree exported ↔ src.Imports tree exported name := by
  simp only [importedNames, Names.mem_ofList, List.mem_flatMap, List.mem_filter,
    List.mem_filterMap, isLibraryImport_iff, localName?_eq_some_iff, Node.importSpecifiers,
    Node.mem_partsOf_iff]
  constructor
  · rintro ⟨statement, ⟨hstatement, himports⟩, specifier, ⟨clause, ⟨hclause, hclauseKind⟩, names,
      ⟨hnames, hnamesKind⟩, hspecifier, hspecifierKind⟩, given, hgiven, htypes, hkey, rfl⟩
    exact .specifier hstatement himports hclause hclauseKind hnames hnamesKind hspecifier
      hspecifierKind htypes hgiven hkey
  · rintro ⟨hstatement, himports, hclause, hclauseKind, hnames, hnamesKind, hspecifier,
      hspecifierKind, htypes, hgiven, hkey⟩
    exact ⟨_, ⟨hstatement, himports⟩, _, ⟨_, ⟨hclause, hclauseKind⟩, _, ⟨hnames, hnamesKind⟩,
      hspecifier, hspecifierKind⟩, _, hgiven, htypes, hkey, rfl⟩

theorem mem_entryNames_iff {name : String} :
    name ∈ src.entryNames tree kind assumeImported ↔ src.Calls tree assumeImported kind name := by
  unfold entryNames Calls
  split <;> simp_all [mem_importedNames_iff, or_comm]

/-! ## Calls -/

theorem identifierCallee?_eq_some_iff {call : Node} {name : String} :
    src.identifierCallee? call = some name ↔
      ∃ function, call.child? .function = some function ∧ function.kind = .identifier ∧
        src.text function = name := by
  simp [identifierCallee?, Option.bind_eq_some_iff]

/-- A definition has its own name whatever is assumed. -/
theorem entryNames_of_isDefinition (assumeImported : Bool) (h : kind.isDefinition) :
    src.entryNames tree kind false = src.entryNames tree kind assumeImported := by
  simp [entryNames, h]

/-- The calls that the entry points of a kind stand at, picked from all calls. -/
theorem map_call_entriesOf :
    (src.entriesOf tree assumeImported kind).map (·.call) =
      (Site.calls tree).filter fun c =>
        src.callsOneOf (src.entryNames tree kind assumeImported) c.node &&
          (kind.isDefinition || !src.isHidden c) := by
  unfold entriesOf
  split
  · next h =>
    simp [definitions, Function.comp_def, definition, h,
      entryNames_of_isDefinition assumeImported h]
  · next h => simp [runs, Function.comp_def, h]

theorem kind_of_mem_entriesOf {entry : EntryPoint}
    (h : entry ∈ src.entriesOf tree assumeImported kind) : entry.kind = kind := by
  unfold entriesOf at h
  split at h
  · obtain ⟨call, -, rfl⟩ := List.mem_map.1 h
    rfl
  · obtain ⟨call, -, rfl⟩ := List.mem_map.1 h
    rfl

theorem callsOneOf_entryNames_iff {call : Node} :
    src.callsOneOf (src.entryNames tree kind assumeImported) call ↔
      ∃ function, call.child? .function = some function ∧ function.kind = .identifier ∧
        src.Calls tree assumeImported kind (src.text function) := by
  simp only [callsOneOf, Option.any_eq_true, identifierCallee?_eq_some_iff, decide_eq_true_eq,
    mem_entryNames_iff]
  grind

theorem isHidden_eq {site : Site} {function : Node}
    (hfunction : site.node.child? .function = some function) (hkind : function.kind = .identifier) :
    src.isHidden site = src.isBound (src.text function) site := by
  simp [isHidden, identifierCallee?, hfunction, hkind]

theorem mem_map_call_entriesOf_iff {site : Site} :
    site ∈ (src.entriesOf tree assumeImported kind).map (·.call) ↔
      src.IsEntry tree assumeImported kind site := by
  rw [map_call_entriesOf, List.mem_filter, Site.mem_calls_iff, Bool.and_eq_true,
    callsOneOf_entryNames_iff]
  constructor
  · rintro ⟨⟨hreached, hcall⟩, ⟨function, hfunction, hkind, hcalls⟩, hseen⟩
    refine ⟨hreached, hcall, function, hfunction, hkind, hcalls, ?_⟩
    intro hruns
    simpa [hruns, isHidden_eq hfunction hkind] using hseen
  · rintro ⟨hreached, hcall, function, hfunction, hkind, hcalls, hseen⟩
    refine ⟨⟨hreached, hcall⟩, ⟨function, hfunction, hkind, hcalls⟩, ?_⟩
    rw [isHidden_eq hfunction hkind]
    grind

theorem pairwise_precedes_entriesOf (src : Source) (tree : Node) (assumeImported : Bool)
    (kind : EntryKind) :
    ((src.entriesOf tree assumeImported kind).map (·.call)).Pairwise Site.Precedes := by
  rw [map_call_entriesOf]
  exact (Site.pairwise_precedes_calls tree).filter _

/-- Where all kinds are looked for, the entry points of each kind are the calls that are entry
points of it, each once and in document order, and the kinds follow each other. -/
theorem entry_points_are_exact (src : Source) (tree : Node) (options : Options) :
    ∃ found : EntryKind → List EntryPoint,
      src.entryPoints tree { options with detect := none } =
        found .createWorkflow ++ found .run ++ found .createSagaWorkflow ++ found .runSaga ∧
      ∀ kind,
        (∀ entry ∈ found kind, entry.kind = kind) ∧
        ((found kind).map (·.call)).Nodup ∧
        ((found kind).map (·.call)).Pairwise Site.Precedes ∧
        ∀ site, site ∈ (found kind).map (·.call) ↔
          src.IsEntry tree options.assumeImported kind site := by
  refine ⟨src.entriesOf tree options.assumeImported, ?_, fun kind => ?_⟩
  · change EntryKind.all.flatMap _ = _
    simp [EntryKind.all]
  · have horder := src.pairwise_precedes_entriesOf tree options.assumeImported kind
    exact ⟨fun entry => kind_of_mem_entriesOf, horder.imp Site.Precedes.ne, horder,
      fun site => mem_map_call_entriesOf_iff⟩

end Source

namespace Sample

def importSource : Source :=
  .ofString "sample.ts" ("\n".intercalate
    ["import \x7b run as a, type run as b \x7d from \"awaitly\";",
     "import type \x7b run as c \x7d from \"awaitly\";",
     "a(f); b(f); c(f);",
     ""])

/-- The word `run` with another name of one letter, behind marks. -/
def runAs (marks : List Node) (start : Nat) : Node :=
  part .importSpecifier ((marks.head?.map Node.start).getD start) (start + 8) (marks ++ [
    role .name .identifier start (start + 3) [], token "as" (start + 4),
    role .aliasName .identifier (start + 7) (start + 8) []])

/-- The names of an import between braces and the module they come from. -/
def importsFrom (start stop : Nat) (specifiers : List Node) : List Node :=
  [part .importClause start stop [
     part .namedImports start stop
       ([token "\x7b" start] ++ specifiers ++ [token "\x7d" (stop - 1)])],
   token "from" (stop + 1),
   role .source .string (stop + 6) (stop + 15) [
     token "\"" (stop + 6), part (.other "string_fragment") (stop + 7) (stop + 14) [],
     token "\"" (stop + 14)],
   token ";" (stop + 15)]

def importTree : Node :=
  part .program 0 110 [
    part .importStatement 0 50 (token "import" 0 ::
      importsFrom 7 34 [runAs [] 9, token "," 17, runAs [keyword .typeKeyword 19] 24]),
    part .importStatement 51 91 (token "import" 51 :: keyword .typeKeyword 58 ::
      importsFrom 63 75 [runAs [] 65]),
    callStatement 92 (part .identifier 94 95 []),
    callStatement 98 (part .identifier 100 101 []),
    callStatement 104 (part .identifier 106 107 [])]

end Sample

namespace Source

/-- Of three imports of `run` two are marked as imports of types, one by its statement and one by
its own mark. Only the call of the third is an entry point. -/
theorem entry_points_are_exact_types :
    (Site.calls Sample.importTree).map (Sample.importSource.text ·.node) =
      ["a(f)", "b(f)", "c(f)"] ∧
    (∀ name, Sample.importSource.Imports Sample.importTree "run" name ↔ name = "a") ∧
    (∃ site, Sample.importSource.IsEntry Sample.importTree false .run site) ∧
    ∀ kind site, Sample.importSource.IsEntry Sample.importTree false kind site →
      kind = .run ∧ Sample.importSource.text site.node = "a(f)" := by
  obtain ⟨hcalls, hnames, hentries⟩ :
      (Site.calls Sample.importTree).map (Sample.importSource.text ·.node) =
        ["a(f)", "b(f)", "c(f)"] ∧
      Sample.importSource.importedNames Sample.importTree "run" = ["a"] ∧
      (Sample.importSource.entryPoints Sample.importTree { detect := none }).map
        (fun entry => (entry.kind, Sample.importSource.text entry.call.node)) =
          [(.run, "a(f)")] := by
    decide +kernel
  obtain ⟨found, hfound, hexact⟩ :=
    entry_points_are_exact Sample.importSource Sample.importTree {}
  have hmem (entry : EntryPoint) : entry ∈ Sample.importSource.entryPoints Sample.importTree
      { detect := none } ↔ ∃ kind, entry ∈ found kind := by
    simp only [hfound, List.mem_append]
    constructor
    · rintro (((h | h) | h) | h) <;> exact ⟨_, h⟩
    · rintro ⟨kind, h⟩
      cases kind <;> simp [h]
  have honly : ∀ kind site, Sample.importSource.IsEntry Sample.importTree false kind site →
      kind = .run ∧ Sample.importSource.text site.node = "a(f)" := by
    intro kind site hsite
    obtain ⟨hkind, -, -, hsites⟩ := hexact kind
    obtain ⟨entry, hentry, rfl⟩ := List.mem_map.1 ((hsites site).2 hsite)
    have hlisted := List.mem_map_of_mem (f := fun entry : EntryPoint =>
      (entry.kind, Sample.importSource.text entry.call.node)) ((hmem entry).2 ⟨kind, hentry⟩)
    rw [hentries, hkind entry hentry] at hlisted
    simpa using hlisted
  refine ⟨hcalls, fun name => ?_, ?_, honly⟩
  · rw [← mem_importedNames_iff, hnames, List.mem_singleton]
  · obtain ⟨entry, rest, heq, -, -⟩ := List.map_eq_cons_iff.1 hentries
    obtain ⟨kind, hentry⟩ := (hmem entry).1 (by simp [heq])
    have hsite := ((hexact kind).2.2.2 entry.call).1 (List.mem_map_of_mem hentry)
    obtain ⟨rfl, -⟩ := honly kind entry.call hsite
    exact ⟨entry.call, hsite⟩

end Source

end FlowShape
