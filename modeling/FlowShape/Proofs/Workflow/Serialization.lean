import FlowShape.Proofs.Flow.Serialization
import FlowShape.Proofs.Timestamp
import FlowShape.Workflow.Basic

/-!
# Reports read off from JSON

The report on a workflow can be read off from the JSON value that is written for it: two workflows
with exact numbers are written as the same value just if they are the same, with all nodes, warnings
and the workflows that they refer to. Nothing that is left out of an object is lost.
-/

namespace FlowShape

open Json

/-! ## Warnings -/

theorem WarningCode.name_inj {c d : WarningCode} (h : c.name = d.name) : c = d := by
  cases c <;> cases d <;> simp_all [name]

theorem Warning.eq_of_same {v w : Warning} (h : Same v.toJson w.toJson) : v = w := by
  have hcode : v.code = w.code := by
    apply WarningCode.name_inj
    simpa [List.lookup_cons] using h.fields "code"
  have hmessage : v.message = w.message := by
    simpa [List.lookup_cons] using h.fields "message"
  have hlocation : v.location = w.location := by
    refine eq_of_rel (fun _ _ _ _ => Location.eq_of_same) ?_
    simpa [List.lookup_cons] using h.fields "location"
  cases v
  cases w
  simp_all

/-! ## Metadata -/

theorem Stats.eq_of_same {s t : Stats} (h : Same s.toJson t.toJson) : s = t := by
  have htotal : s.totalSteps = t.totalSteps := by
    simpa [List.lookup_cons] using h.fields "totalSteps"
  have hconditional : s.conditionalCount = t.conditionalCount := by
    simpa [List.lookup_cons] using h.fields "conditionalCount"
  have hswitch : s.switchCount = t.switchCount := by
    simpa [List.lookup_cons] using h.fields "switchCount"
  have hloop : s.loopCount = t.loopCount := by
    simpa [List.lookup_cons] using h.fields "loopCount"
  have hparallel : s.parallelCount = t.parallelCount := by
    simpa [List.lookup_cons] using h.fields "parallelCount"
  have hrace : s.raceCount = t.raceCount := by
    simpa [List.lookup_cons] using h.fields "raceCount"
  have hstream : s.streamCount = t.streamCount := by
    simpa [List.lookup_cons] using h.fields "streamCount"
  have href : s.workflowRefCount = t.workflowRefCount := by
    simpa [List.lookup_cons] using h.fields "workflowRefCount"
  have hunknown : s.unknownCount = t.unknownCount := by
    simpa [List.lookup_cons] using h.fields "unknownCount"
  cases s
  cases t
  simp_all

theorem Metadata.eq_of_same {m n : Metadata} (hm : m.analyzedAt.IsValid)
    (hn : n.analyzedAt.IsValid) (h : Same m.toJson n.toJson) : m = n := by
  have hanalyzedAt : m.analyzedAt = n.analyzedAt := by
    apply Timestamp.text_inj hm hn
    simpa [List.lookup_cons] using h.fields "analyzedAt"
  have hfilePath : m.filePath = n.filePath := by
    simpa [List.lookup_cons] using h.fields "filePath"
  have hwarnings : m.warnings = n.warnings := by
    refine eq_of_same_array (fun _ _ _ _ => Warning.eq_of_same) ?_
    simpa [List.lookup_cons] using h.fields "warnings"
  have hstats : m.stats = n.stats := by
    apply Stats.eq_of_same
    simpa [List.lookup_cons] using h.fields "stats"
  cases m
  cases n
  simp_all

/-! ## Workflows -/

namespace Workflow

theorem root_eq_of_same {r s : WorkflowRoot}
    (hr : ∀ f ∈ r.children.flatMap Flow.walk, f.IsExact)
    (hs : ∀ f ∈ s.children.flatMap Flow.walk, f.IsExact) (h : Same r.toJson s.toJson) : r = s := by
  have hid : r.id = s.id := by
    apply Id.ext
    simpa [List.lookup_cons] using h.fields "id"
  have hname : r.name = s.name := by
    simpa [List.lookup_cons] using h.fields "name"
  have hsource : r.source = s.source := by
    apply EntryKind.name_inj
    simpa [List.lookup_cons] using h.fields "source"
  have hdependencies : r.dependencies = s.dependencies := by
    apply eq_of_same_strings
    simpa [List.lookup_cons] using h.fields "dependencies"
  have herrorTypes : r.errorTypes = s.errorTypes := by
    apply eq_of_same_strings
    simpa [List.lookup_cons] using h.fields "errorTypes"
  have hchildren : r.children = s.children := by
    refine eq_of_same_array (fun f hf g hg => Flow.eq_of_same ?_ ?_) ?_
    · exact fun x hx => hr x (List.mem_flatMap.2 ⟨f, hf, hx⟩)
    · exact fun x hx => hs x (List.mem_flatMap.2 ⟨g, hg, hx⟩)
    · simpa [List.lookup_cons, Flow.toJsonAll_eq_map] using h.fields "children"
  have hdescription : r.description = s.description := by
    apply eq_of_rel_string
    simpa [List.lookup_cons, List.lookup_append] using h.fields "description"
  have hmarkdown : r.markdown = s.markdown := by
    apply eq_of_rel_string
    simpa [List.lookup_cons, List.lookup_append] using h.fields "markdown"
  have hlocation : r.location = s.location := by
    refine eq_of_rel (fun _ _ _ _ => Location.eq_of_same) ?_
    simpa [List.lookup_cons, List.lookup_append] using h.fields "location"
  cases r
  cases s
  simp_all

/-- The numbers of a workflow are exact, its time is one of the calendar and its references are a
table, through all workflows that it refers to. -/
inductive IsExact : Workflow → Prop
  | intro {w : Workflow} : (∀ f ∈ w.walk, f.IsExact) → w.metadata.analyzedAt.IsValid →
      Table.Sorted w.references → (∀ p ∈ w.references, IsExact p.2) → IsExact w

theorem toJsonFields_eq_map (references : List (String × Workflow)) :
    toJsonFields references = references.map fun p => (p.1, p.2.toJson) := by
  induction references with
  | nil => rfl
  | cons p rest ih => simp [toJsonFields, ih]

theorem toJson_eq (w : Workflow) :
    w.toJson = .object ([("root", w.root.toJson), ("metadata", w.metadata.toJson)] ++
      if w.references = [] then []
      else [("references", .object (w.references.map fun p => (p.1, p.2.toJson)))]) := by
  obtain ⟨root, metadata, references⟩ := w
  simp [toJson, toJsonFields_eq_map]

theorem eq_of_same {a b : Workflow} (ha : a.IsExact) (hb : b.IsExact)
    (h : Same a.toJson b.toJson) : a = b := by
  induction ha generalizing b with
  | @intro a hnodes htime hsorted hreferences ih =>
    obtain ⟨hnodes', htime', hsorted', hreferences'⟩ := hb
    rw [toJson_eq, toJson_eq] at h
    have hroot : a.root = b.root := by
      apply root_eq_of_same hnodes hnodes'
      simpa [List.lookup_cons] using h.fields "root"
    have hmetadata : a.metadata = b.metadata := by
      apply Metadata.eq_of_same htime htime'
      simpa [List.lookup_cons] using h.fields "metadata"
    have hreferences : a.references = b.references := by
      refine eq_of_rel_table hsorted hsorted' (fun p hp q hq => ih p hp (hreferences' q hq)) ?_
      simpa [List.lookup_cons] using h.fields "references"
    cases a
    cases b
    simp_all

/-- Workflows with exact numbers are written as the same JSON value just if they are the same. -/
theorem serialization_loses_nothing {a b : Workflow} (ha : a.IsExact) (hb : b.IsExact) :
    Same a.toJson b.toJson ↔ a = b := by
  constructor
  · exact eq_of_same ha hb
  · rintro rfl
    exact .refl _

end Workflow

namespace Sample

/-- The report on a workflow, made at a leap second. -/
def report (body : List Flow) (warnings : List Warning) (references : List (String × Workflow)) :
    Workflow where
  root :=
    { id := ⟨"workflow_2"⟩, name := "w", source := .run, dependencies := ["a", "b"],
      errorTypes := [], children := body, description := none, markdown := some "",
      location := none }
  metadata :=
    { analyzedAt := ⟨20088, 86399, 1500000000⟩, filePath := "sample.ts", warnings, stats := {} }
  references := references

/-- A report that refers to another one. -/
def referring (body : List Flow) (warnings : List Warning) : Workflow :=
  report [] [] [("v", report body warnings [])]

/-- Bodies that differ in their sort, or in what is left out: an alternate, settings, a number, the
end of a location. -/
def bodies : List (List Flow) :=
  let tag : Tag := { id := ⟨"step_1"⟩ }
  [[.conditional tag ⟨"c", none, none⟩ [] none],
   [.conditional tag ⟨"c", none, none⟩ [] (some [])],
   [.step tag { callee := "f" }],
   [.step { tag with id := ⟨"s"⟩ } { callee := "f" }],
   [.step { tag with location := some ⟨"f", 1, 0, none, none⟩ } { callee := "f" }],
   [.step { tag with location := some ⟨"f", 1, 0, some 1, none⟩ } { callee := "f" }],
   [.step tag { callee := "f", retry := some {} }],
   [.step tag { callee := "f", timeout := some {} }],
   [.step tag { callee := "f", timeout := some ⟨some (.literal (.finite 5))⟩ }],
   [.step tag { callee := "f", timeout := some ⟨some .dynamic⟩ }],
   [.stream tag ⟨.read, none, []⟩],
   [.stream tag ⟨.read, none, [("a", .dynamic), ("b", .literal (.finite 5))]⟩],
   [.sequence tag []],
   [.race tag "f" []],
   [.parallel tag .all "f" []],
   [.parallel tag .allSettled "f" []],
   []]

/-- Warnings with the same message or with the same code. -/
def warnings : List (List Warning) :=
  [[⟨.callbackNotFound, "f", none⟩], [⟨.unresolvedWorkflowRef, "f", none⟩],
   [⟨.callbackNotFound, "", none⟩]]

def reports : List Workflow :=
  bodies.map (referring · []) ++ warnings.map (referring [] ·)

end Sample

namespace Workflow

theorem serialization_loses_nothing_references :
    (∀ w ∈ Sample.reports, w.IsExact) ∧
    Sample.reports.Pairwise fun v w => ¬Same v.toJson w.toJson := by
  have hnodes : ∀ body ∈ [] :: Sample.bodies, ∀ f ∈ body.flatMap Flow.walk, f.IsExact := by
    decide +kernel
  have htime : (Sample.report [] [] []).metadata.analyzedAt.IsValid := by decide
  have hreferring {body : List Flow} (hbody : body ∈ [] :: Sample.bodies)
      (warnings : List Warning) : (Sample.referring body warnings).IsExact := by
    have hinner : (Sample.report body warnings []).IsExact :=
      .intro (hnodes body hbody) htime .nil (by simp [Sample.report])
    refine .intro (by simp [Sample.referring, Sample.report, walk]) htime
      (List.pairwise_singleton _ _) fun p hp => ?_
    obtain rfl := List.mem_singleton.1 hp
    exact hinner
  have hexact : ∀ w ∈ Sample.reports, w.IsExact := by
    intro w hw
    rcases List.mem_append.1 hw with hw | hw
    · obtain ⟨body, hbody, rfl⟩ := List.mem_map.1 hw
      exact hreferring (List.mem_cons_of_mem _ hbody) []
    · obtain ⟨warnings, -, rfl⟩ := List.mem_map.1 hw
      exact hreferring (List.mem_cons_self ..) warnings
  have hdiffer : Sample.reports.Pairwise fun v w => v ≠ w := by
    simp [Sample.reports, Sample.bodies, Sample.warnings, Sample.referring, Sample.report]
  refine ⟨hexact, hdiffer.imp_of_mem ?_⟩
  intro v w hv hw hne hsame
  exact hne ((serialization_loses_nothing (hexact v hv) (hexact w hw)).1 hsame)

end Workflow

end FlowShape
