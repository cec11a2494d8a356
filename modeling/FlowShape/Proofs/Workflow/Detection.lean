import FlowShape.Proofs.Emission.Numbering
import FlowShape.Proofs.Entry.Exactness
import FlowShape.Proofs.Workflow.Accounting
import FlowShape.Proofs.Workflow.Relabeling

/-!
# Looking for one kind of entry points

Entry points are analysed one after the other, and all that a later one sees of an earlier one are
the numbers it has used up. So looking for one kind only gives the workflows and the warnings of
that kind as they are found among all, with numbers that start earlier.
-/

namespace FlowShape

/-! ## Warnings of one kind -/

/-- What stands before and after the last mark. -/
theorem Text.eq_of_last {mark : Char} {xs ys before before' : List Char} (hxs : mark ∉ xs)
    (hys : mark ∉ ys) (h : before ++ mark :: xs = before' ++ mark :: ys) :
    before = before' ∧ xs = ys := by
  rcases List.append_eq_append_iff.1 h with ⟨between, hbefore, h⟩ | ⟨between, hbefore, h⟩
  · cases between with
    | nil => simp_all
    | cons c between => exact absurd (by simp [(List.cons.inj h).2]) hxs
  · cases between with
    | nil => simp_all
    | cons c between => exact absurd (by simp [(List.cons.inj h).2]) hys

namespace Warning

/-- The mark around the name of a workflow in a message. -/
def quote : Char := Char.ofNat 96

/-- What follows the name of a workflow and its mark in the message about an entry point. -/
def kindText (kind : EntryKind) : List Char :=
  (" (" ++ kind.name ++ ") has no function-literal callback").toList

/-- Whether a warning is about an entry point of a kind, which is told at the end of its message. -/
def isAbout (kind : EntryKind) (x : Warning) : Bool :=
  x.code == .callbackNotFound && (quote :: kindText kind).isSuffixOf x.message.toList

theorem toList_message_callbackNotFound (workflow : String) (kind : EntryKind)
    (location : Option Location) :
    (callbackNotFound workflow kind location).message.toList =
      quote :: (workflow.toList ++ quote :: kindText kind) := by
  simp [callbackNotFound, kindText, quote]

theorem quote_notMem_kindText (kind : EntryKind) : quote ∉ kindText kind := by
  cases kind <;> decide +kernel

theorem kindText_inj {k l : EntryKind} (h : kindText k = kindText l) : k = l := by
  have hname := (String.append_left_inj _).1 (String.toList_inj.1 h)
  exact EntryKind.name_inj ((String.append_right_inj _).1 hname)

/-- The name of a workflow may hold marks, but what follows it does not. -/
theorem isAbout_callbackNotFound_iff {workflow : String} {kind kind' : EntryKind}
    {location : Option Location} :
    (callbackNotFound workflow kind' location).isAbout kind ↔ kind' = kind := by
  rw [isAbout, Bool.and_eq_true, List.isSuffixOf_iff_suffix, toList_message_callbackNotFound,
    beq_iff_eq]
  constructor
  · rintro ⟨-, before, h⟩
    change before ++ _ = (quote :: workflow.toList) ++ _ at h
    have hlast :=
      Text.eq_of_last (quote_notMem_kindText kind) (quote_notMem_kindText kind') h
    exact (kindText_inj hlast.2).symm
  · rintro rfl
    exact ⟨rfl, quote :: workflow.toList, rfl⟩

end Warning

/-! ## Entry points of one kind -/

namespace EntryKind

/-- Each kind is reported once. -/
theorem exists_all_eq (kind : EntryKind) :
    ∃ before after, all = before ++ kind :: after ∧ kind ∉ before ∧ kind ∉ after := by
  obtain ⟨before, after, hall⟩ := List.append_of_mem (show kind ∈ all by cases kind <;> decide)
  have hnodup : all.Nodup := by decide
  grind

end EntryKind

namespace Source

variable {src : Source} {tree : Node}

theorem kind_of_mem_flatMap {assumeImported : Bool} {kinds : List EntryKind} {entry : EntryPoint}
    (h : entry ∈ kinds.flatMap (src.entriesOf tree assumeImported)) : entry.kind ∈ kinds := by
  obtain ⟨kind, hkind, hentry⟩ := List.mem_flatMap.1 h
  rwa [kind_of_mem_entriesOf hentry]

theorem entryPoints_some (options : Options) (kind : EntryKind) :
    src.entryPoints tree { options with detect := some kind } =
      src.entriesOf tree options.assumeImported kind := by
  cases kind <;> exact List.append_nil _

/-- The entry points of one kind stand together among those of all kinds. -/
theorem exists_entryPoints_eq (src : Source) (tree : Node) (options : Options)
    (kind : EntryKind) :
    ∃ before after, src.entryPoints tree { options with detect := none } =
        before ++ (src.entryPoints tree { options with detect := some kind } ++ after) ∧
      (∀ entry ∈ before, entry.kind ≠ kind) ∧ (∀ entry ∈ after, entry.kind ≠ kind) ∧
      ∀ entry ∈ src.entryPoints tree { options with detect := some kind }, entry.kind = kind := by
  obtain ⟨before, after, hall, hbefore, hafter⟩ := kind.exists_all_eq
  have hother {kinds : List EntryKind} (hkinds : kind ∉ kinds) :
      ∀ entry ∈ kinds.flatMap (src.entriesOf tree options.assumeImported), entry.kind ≠ kind := by
    intro entry hentry heq
    apply hkinds
    rw [← heq]
    exact kind_of_mem_flatMap hentry
  rw [entryPoints_some]
  refine ⟨_, _, ?_, hother hbefore, hother hafter, fun entry => kind_of_mem_entriesOf⟩
  change EntryKind.all.flatMap _ = _
  rw [hall, List.flatMap_append, List.flatMap_cons]

end Source

namespace Assembly

variable (a : Assembly) (used : Nat)

theorem assemble_append (before after : List EntryPoint) :
    a.assemble (before ++ after) used =
      ((a.assemble before used).1 ++ (a.assemble after (a.assemble before used).2.2).1,
        (a.assemble before used).2.1 ++ (a.assemble after (a.assemble before used).2.2).2.1,
        (a.assemble after (a.assemble before used).2.2).2.2) := by
  induction before generalizing used with
  | nil => rfl
  | cons entry before ih =>
    cases hb : bodyOf? entry with
    | none => simp [assemble, hb, ih]
    | some callback => simp [assemble, hb, ih]

variable {a used} {entries : List EntryPoint} {kind : EntryKind}

theorem source_of_mem_assemble {w : Workflow} (h : w ∈ (a.assemble entries used).1) :
    ∃ entry ∈ entries, w.root.source = entry.kind := by
  obtain ⟨entry, hentry, callback, before, -, rfl⟩ := exists_of_mem_assemble h
  exact ⟨entry, hentry, rfl⟩

theorem isAbout_iff_of_mem_warnings {x : Warning} (h : x ∈ (a.assemble entries used).2.1) :
    ∃ entry ∈ entries, ∀ kind, x.isAbout kind ↔ entry.kind = kind := by
  obtain ⟨entry, hentry, -, rfl⟩ := exists_of_mem_warnings h
  exact ⟨entry, hentry, fun _ => Warning.isAbout_callbackNotFound_iff⟩

/-- Entry points of one kind give workflows and warnings of that kind. -/
theorem filter_assemble_same (h : ∀ entry ∈ entries, entry.kind = kind) :
    (a.assemble entries used).1.filter (·.root.source == kind) = (a.assemble entries used).1 ∧
      (a.assemble entries used).2.1.filter (·.isAbout kind) =
        (a.assemble entries used).2.1 := by
  constructor
  · apply List.filter_eq_self.2
    intro w hw
    obtain ⟨entry, hentry, hsource⟩ := source_of_mem_assemble hw
    simp [hsource, h entry hentry]
  · apply List.filter_eq_self.2
    intro x hx
    obtain ⟨entry, hentry, hkind⟩ := isAbout_iff_of_mem_warnings hx
    simp [hkind, h entry hentry]

theorem filter_assemble_other (h : ∀ entry ∈ entries, entry.kind ≠ kind) :
    (a.assemble entries used).1.filter (·.root.source == kind) = [] ∧
      (a.assemble entries used).2.1.filter (·.isAbout kind) = [] := by
  constructor
  · apply List.filter_eq_nil_iff.2
    intro w hw
    obtain ⟨entry, hentry, hsource⟩ := source_of_mem_assemble hw
    simp [hsource, h entry hentry]
  · apply List.filter_eq_nil_iff.2
    intro x hx
    obtain ⟨entry, hentry, hkind⟩ := isAbout_iff_of_mem_warnings hx
    simp [hkind, h entry hentry]

/-- What is assembled of one kind, between others, is assembled after the numbers that those before
it use up. -/
theorem filter_assemble_between (a : Assembly) (used : Nat) {before after : List EntryPoint}
    (hbefore : ∀ entry ∈ before, entry.kind ≠ kind) (h : ∀ entry ∈ entries, entry.kind = kind)
    (hafter : ∀ entry ∈ after, entry.kind ≠ kind) :
    (a.assemble (before ++ (entries ++ after)) used).1.filter (·.root.source == kind) =
        (a.assemble entries (a.assemble before used).2.2).1 ∧
      (a.assemble (before ++ (entries ++ after)) used).2.1.filter
          (·.isAbout kind) =
        (a.assemble entries (a.assemble before used).2.2).2.1 := by
  simp only [assemble_append, List.filter_append, filter_assemble_other hbefore,
    filter_assemble_same h, filter_assemble_other hafter, List.nil_append, List.append_nil,
    and_self]

/-- Which kind is looked for does not matter to what is assembled. -/
theorem assemble_detect (options : Options) (now : Timestamp) (src : Source) (tree : Node)
    (detect : Option EntryKind) (entries : List EntryPoint) (used shift : Nat) :
    (ofFile options now src tree).assemble entries (used + shift) =
      (((ofFile { options with detect } now src tree).assemble entries used).1.map
          (Workflow.relabel { shift }),
        ((ofFile { options with detect } now src tree).assemble entries used).2.1,
        ((ofFile { options with detect } now src tree).assemble entries used).2.2 + shift) := by
  have hrelabels : (ofFile { options with detect } now src tree).Relabels { shift }
      (ofFile options now src tree) :=
    ⟨rfl, rfl, rfl, ⟨fun n => (Option.bind_fun_some _).symm, rfl⟩⟩
  have hwarning : Relabeling.warning { shift } = id := by
    funext x
    simp [Relabeling.warning]
  simpa only [hwarning, List.map_id] using hrelabels.assemble entries used

end Assembly

/-- Looking for one kind of entry points gives the workflows and warnings of that kind among those
of all kinds, with all numbers lowered alike. -/
theorem Analysis.detection_selects_one_kind (options : Options) (now : Timestamp) (src : Source)
    (tree : Node) (used : Nat) (kind : EntryKind) (h : tree.label.flawed = false)
    (hreferences : options.resolveReferences = false) :
    ∃ a b after after' shift,
      Analysis.run { options with detect := none } now src tree used = .ok (a, after) ∧
      Analysis.run { options with detect := some kind } now src tree used = .ok (b, after') ∧
      a.filePath = b.filePath ∧
      a.workflows.filter (·.root.source == kind) =
        b.workflows.map (Workflow.relabel { shift }) ∧
      a.warnings.filter (·.isAbout kind) = b.warnings := by
  obtain ⟨before, rest, hentries, hbefore, hrest, hsame⟩ :=
    src.exists_entryPoints_eq tree options kind
  let assembly := Assembly.ofFile { options with detect := none } now src tree
  -- the numbers that are used up before the entry points of the kind are reached
  obtain ⟨shift, hshift⟩ :=
    Nat.exists_eq_add_of_le (assembly.numberedAll_assemble before used).le
  obtain ⟨hworkflows, hwarnings⟩ := assembly.filter_assemble_between used hbefore hsame hrest
  rw [hshift, ← hentries, Assembly.assemble_detect _ now src tree (some kind)]
    at hworkflows hwarnings
  have hresolve : ¬options.resolveReferences = true := by simp [hreferences]
  refine ⟨_, _, _, _, shift, run_of_not_flawed h rfl, run_of_not_flawed h rfl, rfl, ?_, hwarnings⟩
  simp only [if_neg hresolve]
  exact hworkflows

/-- The definition in front of the two calls of `run` uses up two numbers. -/
theorem Analysis.detection_selects_one_kind_several :
    Sample.severalTree.label.flawed = false ∧
      ∃ a b after after' shift,
        Analysis.run { assumeImported := true } ⟨0, 0, 0⟩ Sample.severalSource
          Sample.severalTree 0 = .ok (a, after) ∧
        Analysis.run { assumeImported := true, detect := some .run } ⟨0, 0, 0⟩ Sample.severalSource
          Sample.severalTree 0 = .ok (b, after') ∧
        a.workflows.map (·.root.id.number) = [2, 6] ∧
        b.workflows.map (·.root.id.number) = [4] ∧ b.warnings.length = 1 ∧
        a.workflows.filter (·.root.source == .run) =
          b.workflows.map (Workflow.relabel { shift }) ∧
        a.warnings.filter (·.isAbout .run) = b.warnings := by
  have hall : ((Analysis.run { assumeImported := true } ⟨0, 0, 0⟩ Sample.severalSource
      Sample.severalTree 0).toOption.map fun p => p.1.workflows.map (·.root.id.number)) =
      some [2, 6] := by decide +kernel
  have hone : ((Analysis.run { assumeImported := true, detect := some .run } ⟨0, 0, 0⟩
      Sample.severalSource Sample.severalTree 0).toOption.map fun p =>
        (p.1.workflows.map (·.root.id.number), p.1.warnings.length)) = some ([4], 1) := by
    decide +kernel
  obtain ⟨a, b, after, after', shift, ha, hb, -, hworkflows, hwarnings⟩ :=
    Analysis.detection_selects_one_kind { assumeImported := true } ⟨0, 0, 0⟩ Sample.severalSource
      Sample.severalTree 0 .run rfl rfl
  rw [ha] at hall
  rw [hb] at hone
  obtain ⟨hids, hlength⟩ := Prod.mk.inj (Option.some.inj hone)
  exact ⟨rfl, a, b, after, after', shift, ha, hb, Option.some.inj hall, hids, hlength, hworkflows,
    hwarnings⟩

end FlowShape
