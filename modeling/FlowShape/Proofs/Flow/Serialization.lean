import Mathlib.Data.List.Basic
import FlowShape.Flow.Json
import FlowShape.Proofs.Flow.Walk
import FlowShape.Proofs.Json

/-!
# Flow nodes read off from JSON

A node is written as one object: its type, the fields of its tag and its own fields side by side.
The names of own fields are none of the others, so the three parts can be told apart, and what is
left out of an object was absent. A node is then told by what it is written as, down to its
children. The numbers of a node have to be whole and below `2 ^ 53` for that, as others may be
rounded.
-/

namespace FlowShape

open Json

/-! ## Names -/

theorem ParallelMode.name_inj {m n : ParallelMode} (h : m.name = n.name) : m = n := by
  cases m <;> cases n <;> simp_all [name]

theorem StreamKind.name_inj {k l : StreamKind} (h : k.name = l.name) : k = l := by
  cases k <;> cases l <;> simp_all [name]

theorem LoopKind.name_inj {k l : LoopKind} (h : k.name = l.name) : k = l := by
  cases k <;> cases l <;> simp_all [name]

theorem ConditionalHelper.name_inj {h k : ConditionalHelper} (heq : h.name = k.name) : h = k := by
  obtain ⟨_ | _, _ | _⟩ := h <;> obtain ⟨_ | _, _ | _⟩ := k <;> simp_all [name]

/-! ## Numbers -/

namespace Numeric

/-- Numbers that are written exactly: whole ones below `2 ^ 53` in magnitude. -/
def IsExact : Numeric → Prop
  | literal (.finite value) => value.den = 1 ∧ value.num.natAbs < Nat.pow 2 53
  | literal (.infinite _) => False
  | dynamic => True

instance : (x : Numeric) → Decidable x.IsExact
  | literal (.finite value) =>
    inferInstanceAs (Decidable (value.den = 1 ∧ value.num.natAbs < Nat.pow 2 53))
  | literal (.infinite _) => inferInstanceAs (Decidable False)
  | dynamic => inferInstanceAs (Decidable True)

/-- What an exact number is written as. -/
theorem toJson_of_isExact {x : Numeric} (h : x.IsExact) :
    x = dynamic ∨ ∃ n : Int, x = literal (.finite n) ∧ x.toJson = .integer n := by
  cases x with
  | dynamic => exact .inl rfl
  | literal number =>
    cases number with
    | infinite => cases h
    | finite value =>
      have hvalue : (value.num : Rat) = value := Rat.coe_int_num_of_den_eq_one h.1
      exact .inr ⟨value.num, by rw [hvalue], if_pos h⟩

theorem eq_of_same {a b : Numeric} (ha : a.IsExact) (hb : b.IsExact)
    (h : Same a.toJson b.toJson) : a = b := by
  rcases toJson_of_isExact ha with rfl | ⟨m, rfl, hm⟩ <;>
    rcases toJson_of_isExact hb with rfl | ⟨n, rfl, hn⟩
  · rfl
  · rw [hn] at h
    cases h with
    | number h => cases h
  · rw [hm] at h
    cases h with
    | number _ h => cases h
  · rw [hm, hn] at h
    rw [same_integer_iff.1 h]

theorem eq_of_rel {o p : Option Numeric} (ho : ∀ x ∈ o, x.IsExact) (hp : ∀ x ∈ p, x.IsExact)
    (h : Option.Rel Same (o.map toJson) (p.map toJson)) : o = p :=
  Json.eq_of_rel (fun a ha b hb => eq_of_same (ho a ha) (hp b hb)) h

end Numeric

/-! ## Records -/

theorem Location.eq_of_same {a b : Location} (h : Same a.toJson b.toJson) : a = b := by
  have hpath : a.filePath = b.filePath := by simpa [List.lookup_cons] using h.fields "filePath"
  have hline : a.line = b.line := by simpa [List.lookup_cons] using h.fields "line"
  have hcolumn : a.column = b.column := by simpa [List.lookup_cons] using h.fields "column"
  have hendLine : a.endLine = b.endLine := by
    apply eq_of_rel fun _ _ _ _ => same_nat_iff.1
    simpa [List.lookup_cons, List.lookup_append] using h.fields "endLine"
  have hendColumn : a.endColumn = b.endColumn := by
    apply eq_of_rel fun _ _ _ _ => same_nat_iff.1
    simpa [List.lookup_cons, List.lookup_append] using h.fields "endColumn"
  cases a
  cases b
  simp_all

namespace Retry

/-- The numbers of the settings are exact. -/
structure IsExact (r : Retry) : Prop where
  attempts : ∀ x ∈ r.attempts, x.IsExact
  baseDelay : ∀ x ∈ r.baseDelay, x.IsExact
  maxDelay : ∀ x ∈ r.maxDelay, x.IsExact

instance (r : Retry) : Decidable r.IsExact :=
  decidable_of_iff ((∀ x ∈ r.attempts, x.IsExact) ∧ (∀ x ∈ r.baseDelay, x.IsExact) ∧
      ∀ x ∈ r.maxDelay, x.IsExact)
    ⟨fun ⟨attempts, baseDelay, maxDelay⟩ => ⟨attempts, baseDelay, maxDelay⟩,
      fun h => ⟨h.attempts, h.baseDelay, h.maxDelay⟩⟩

theorem eq_of_same {a b : Retry} (ha : a.IsExact) (hb : b.IsExact) (h : Same a.toJson b.toJson) :
    a = b := by
  have hattempts : a.attempts = b.attempts := by
    apply Numeric.eq_of_rel ha.attempts hb.attempts
    simpa [List.lookup_append] using h.fields "attempts"
  have hbackoff : a.backoff = b.backoff := by
    apply eq_of_rel_string
    simpa [List.lookup_append] using h.fields "backoff"
  have hbaseDelay : a.baseDelay = b.baseDelay := by
    apply Numeric.eq_of_rel ha.baseDelay hb.baseDelay
    simpa [List.lookup_append] using h.fields "baseDelay"
  have hmaxDelay : a.maxDelay = b.maxDelay := by
    apply Numeric.eq_of_rel ha.maxDelay hb.maxDelay
    simpa [List.lookup_append] using h.fields "maxDelay"
  cases a
  cases b
  simp_all

end Retry

namespace Timeout

/-- The number of the settings is exact. -/
structure IsExact (t : Timeout) : Prop where
  ms : ∀ x ∈ t.ms, x.IsExact

instance (t : Timeout) : Decidable t.IsExact :=
  decidable_of_iff (∀ x ∈ t.ms, x.IsExact) ⟨fun ms => ⟨ms⟩, fun h => h.ms⟩

theorem eq_of_same {a b : Timeout} (ha : a.IsExact) (hb : b.IsExact)
    (h : Same a.toJson b.toJson) : a = b := by
  have hms : a.ms = b.ms := by
    apply Numeric.eq_of_rel ha.ms hb.ms
    simpa using h.fields "ms"
  cases a
  cases b
  simp_all

end Timeout

theorem Tag.eq_of_sameFields {s t : Tag} (h : SameFields s.fields t.fields) : s = t := by
  have hid : s.id = t.id := by
    apply Id.ext
    simpa [fields, List.lookup_cons] using h "id"
  have hname : s.name = t.name := by
    apply eq_of_rel_string
    simpa [fields, List.lookup_cons, List.lookup_append] using h "name"
  have hkey : s.key = t.key := by
    apply eq_of_rel_string
    simpa [fields, List.lookup_cons, List.lookup_append] using h "key"
  have hlocation : s.location = t.location := by
    apply eq_of_rel fun _ _ _ _ => Location.eq_of_same
    simpa [fields, List.lookup_cons, List.lookup_append] using h "location"
  cases s
  cases t
  simp_all

namespace Step

/-- The numbers of the settings are exact. -/
structure IsExact (s : Step) : Prop where
  retry : ∀ r ∈ s.retry, r.IsExact
  timeout : ∀ t ∈ s.timeout, t.IsExact

instance (s : Step) : Decidable s.IsExact :=
  decidable_of_iff ((∀ r ∈ s.retry, r.IsExact) ∧ ∀ t ∈ s.timeout, t.IsExact)
    ⟨fun ⟨retry, timeout⟩ => ⟨retry, timeout⟩, fun h => ⟨h.retry, h.timeout⟩⟩

theorem eq_of_sameFields {a b : Step} (ha : a.IsExact) (hb : b.IsExact)
    (h : SameFields a.fields b.fields) : a = b := by
  have hcallee : a.callee = b.callee := by
    simpa [fields, List.lookup_cons] using h "callee"
  have hretry : a.retry = b.retry := by
    apply eq_of_rel fun r hr r' hr' => Retry.eq_of_same (ha.retry r hr) (hb.retry r' hr')
    simpa [fields, List.lookup_cons, List.lookup_append] using h "retry"
  have htimeout : a.timeout = b.timeout := by
    apply eq_of_rel fun t ht t' ht' => Timeout.eq_of_same (ha.timeout t ht) (hb.timeout t' ht')
    simpa [fields, List.lookup_cons, List.lookup_append] using h "timeout"
  have hdescription : a.description = b.description := by
    apply eq_of_rel_string
    simpa [fields, List.lookup_cons, List.lookup_append] using h "description"
  have hmarkdown : a.markdown = b.markdown := by
    apply eq_of_rel_string
    simpa [fields, List.lookup_cons, List.lookup_append] using h "markdown"
  cases a
  cases b
  simp_all

end Step

theorem SagaStep.eq_of_sameFields {a b : SagaStep} (h : SameFields a.fields b.fields) : a = b := by
  have hcallee : a.callee = b.callee := by
    simpa [fields, List.lookup_cons] using h "callee"
  have hcompensation : a.hasCompensation = b.hasCompensation := by
    simpa [fields, List.lookup_cons] using h "hasCompensation"
  have hcompensationCallee : a.compensationCallee = b.compensationCallee := by
    apply eq_of_rel_string
    simpa [fields, List.lookup_cons, List.lookup_append] using h "compensationCallee"
  have hisTryStep : a.isTryStep = b.isTryStep := by
    simpa [fields, List.lookup_cons, List.lookup_append] using h "isTryStep"
  cases a
  cases b
  simp_all

namespace Stream

/-- The options are a table of exact numbers. -/
structure IsExact (s : Stream) : Prop where
  sorted : Table.Sorted s.options
  options : ∀ p ∈ s.options, p.2.IsExact

instance (s : Stream) : Decidable s.IsExact :=
  decidable_of_iff (Table.Sorted s.options ∧ ∀ p ∈ s.options, p.2.IsExact)
    ⟨fun ⟨sorted, options⟩ => ⟨sorted, options⟩, fun h => ⟨h.sorted, h.options⟩⟩

theorem eq_of_sameFields {a b : Stream} (ha : a.IsExact) (hb : b.IsExact)
    (h : SameFields a.fields b.fields) : a = b := by
  have hkind : a.kind = b.kind := by
    apply StreamKind.name_inj
    simpa [fields, List.lookup_cons] using h "streamType"
  have hchannel : a.channel = b.channel := by
    apply eq_of_rel_string
    simpa [fields, List.lookup_cons, List.lookup_append] using h "namespace"
  have hoptions : a.options = b.options := by
    apply eq_of_rel_table ha.sorted hb.sorted fun p hp q hq =>
      Numeric.eq_of_same (ha.options p hp) (hb.options q hq)
    simpa [fields, List.lookup_cons, List.lookup_append] using h "options"
  cases a
  cases b
  simp_all

end Stream

theorem Repetition.eq_of_sameFields {a b : Repetition} {body body' : Json}
    (h : SameFields (a.fields body) (b.fields body')) : a = b ∧ Same body body' := by
  have hkind : a.kind = b.kind := by
    apply LoopKind.name_inj
    simpa [fields, List.lookup_cons] using h "loopType"
  have hsource : a.iterSource = b.iterSource := by
    apply eq_of_rel_string
    simpa [fields, List.lookup_cons, List.lookup_append] using h "iterSource"
  have hbody : Same body body' := by
    simpa [fields, List.lookup_cons, List.lookup_append] using h "body"
  have hboundKnown : a.boundKnown = b.boundKnown := by
    simpa [fields, List.lookup_cons, List.lookup_append] using h "boundKnown"
  have hboundCount : a.boundCount = b.boundCount := by
    apply eq_of_rel fun _ _ _ _ => same_nat_iff.1
    simpa [fields, List.lookup_cons, List.lookup_append] using h "boundCount"
  cases a
  cases b
  simp_all

/-! ## Nodes -/

namespace Flow

/-- The numbers of a node are exact and its options are a table. -/
def IsExact : Flow → Prop
  | step _ s => s.IsExact
  | stream _ s => s.IsExact
  | _ => True

instance : (f : Flow) → Decidable f.IsExact
  | step _ s | stream _ s => inferInstanceAs (Decidable s.IsExact)
  | sagaStep .. | sequence .. | parallel .. | race .. | conditional .. | switch .. | loop ..
  | workflowRef .. | unknown .. => inferInstanceAs (Decidable True)

/-- One case of a switch as it is written. -/
def caseJson (c : Case Flow) : Json :=
  .object (Json.optional "value" .string c.value ++
    [("isDefault", .bool c.isDefault), ("body", .array (c.body.map toJson))])

/-- The fields of a node apart from its type and its tag. -/
def ownFields : Flow → List (String × Json)
  | step _ s => s.fields
  | sagaStep _ s => s.fields
  | sequence _ cs => [("children", .array (cs.map toJson))]
  | parallel _ mode callee cs =>
    [("children", .array (cs.map toJson)), ("mode", .string mode.name), ("callee", .string callee)]
  | race _ callee cs => [("children", .array (cs.map toJson)), ("callee", .string callee)]
  | stream _ s => s.fields
  | conditional _ condition consequent alternate =>
    [("condition", .string condition.text)] ++
      Json.optional "helper" (fun h => .string h.name) condition.helper ++
      [("consequent", .array (consequent.map toJson))] ++
      Json.optional "alternate" (fun body => .array (body.map toJson)) alternate ++
      Json.optional "defaultValue" .string condition.defaultValue
  | switch _ expression cases =>
    [("expression", .string expression), ("cases", .array (cases.map caseJson))]
  | loop _ repetition body => repetition.fields (.array (body.map toJson))
  | workflowRef _ ref =>
    [("workflowName", .string ref.workflowName), ("resolved", .bool ref.resolved)]
  | unknown _ u => ("reason", .string u.reason) :: Json.optional "sourceText" .string u.sourceText

theorem toJsonAll_eq_map (fs : List Flow) : toJsonAll fs = fs.map toJson := by
  induction fs with
  | nil => rfl
  | cons f fs ih => simp [toJsonAll, ih]

theorem toJsonCases_eq_map (cases : List (Case Flow)) : toJsonCases cases = cases.map caseJson := by
  induction cases with
  | nil => rfl
  | cons c cs ih => simp [toJsonCases, toJsonAll_eq_map, caseJson, ih]

theorem toJson_eq (f : Flow) : f.toJson = node f.typeName f.tag f.ownFields := by
  cases f with
  | conditional _ _ _ alternate =>
    cases alternate <;> simp [toJson, typeName, tag, ownFields, toJsonAll_eq_map, Json.optional]
  | _ => simp [toJson, typeName, tag, ownFields, toJsonAll_eq_map, toJsonCases_eq_map]

/-- The names of the fields that every node may have. -/
def sharedNames : List String := ["type", "id", "name", "key", "location"]

theorem lookup_ownFields (f : Flow) : ∀ name ∈ sharedNames, f.ownFields.lookup name = none := by
  simp only [sharedNames, List.forall_mem_cons]
  cases f <;>
    simp [ownFields, Step.fields, SagaStep.fields, Stream.fields, Repetition.fields,
      List.lookup_cons, List.lookup_append]

theorem lookup_tag {t : Tag} {name : String} (h : name ∉ ["id", "name", "key", "location"]) :
    t.fields.lookup name = none := by
  simp only [List.mem_cons, not_or] at h
  simp only [Tag.fields, List.lookup_cons, List.lookup_append, lookup_optional]
  grind

/-- The parts of a node do not get mixed up. -/
theorem parts_of_same_node {t t' : String} {tag tag' : Tag} {own own' : List (String × Json)}
    (hown : ∀ name ∈ sharedNames, own.lookup name = none)
    (hown' : ∀ name ∈ sharedNames, own'.lookup name = none)
    (h : Same (node t tag own) (node t' tag' own')) :
    t = t' ∧ tag = tag' ∧ SameFields own own' := by
  have hfields := h.fields
  refine ⟨by simpa [List.lookup_cons] using hfields "type", Tag.eq_of_sameFields ?_, ?_⟩
  · intro name
    by_cases hname : name ∈ ["id", "name", "key", "location"]
    · have htype : (name == "type") = false := by grind
      have hshared : name ∈ sharedNames := by simp_all [sharedNames]
      simpa [List.lookup_cons, htype, List.lookup_append, hown name hshared, hown' name hshared]
        using hfields name
    · rw [lookup_tag hname, lookup_tag hname]
      exact .none
  · intro name
    by_cases hname : name ∈ sharedNames
    · rw [hown name hname, hown' name hname]
      exact .none
    · have htype : (name == "type") = false := by grind [sharedNames]
      have htag : name ∉ ["id", "name", "key", "location"] := by grind [sharedNames]
      simpa [List.lookup_cons, htype, List.lookup_append, lookup_tag htag] using hfields name

theorem parts_of_same {f g : Flow} (h : Same f.toJson g.toJson) :
    f.typeName = g.typeName ∧ f.tag = g.tag ∧ SameFields f.ownFields g.ownFields := by
  rw [toJson_eq f, toJson_eq g] at h
  exact parts_of_same_node f.lookup_ownFields g.lookup_ownFields h

theorem eq_of_same_case {c d : Case Flow}
    (hnodes : ∀ f ∈ c.body, ∀ g ∈ d.body, Same f.toJson g.toJson → f = g)
    (h : Same (caseJson c) (caseJson d)) : c = d := by
  have hvalue : c.value = d.value := by
    apply eq_of_rel_string
    simpa [List.lookup_cons, List.lookup_append] using h.fields "value"
  have hisDefault : c.isDefault = d.isDefault := by
    simpa [List.lookup_cons, List.lookup_append] using h.fields "isDefault"
  have hbody : c.body = d.body := by
    apply eq_of_same_array hnodes
    simpa [List.lookup_cons, List.lookup_append] using h.fields "body"
  cases c
  cases d
  simp_all

theorem eq_of_same_condition {tag : Tag} {c d : Condition} {cs ds : List Flow}
    {as bs : Option (List Flow)}
    (h : SameFields (conditional tag c cs as).ownFields (conditional tag d ds bs).ownFields) :
    c = d := by
  have htext : c.text = d.text := by
    simpa [ownFields, List.lookup_cons, List.lookup_append] using h "condition"
  have hhelper : c.helper = d.helper := by
    refine eq_of_rel (fun x _ y _ hxy => ConditionalHelper.name_inj (same_string_iff.1 hxy)) ?_
    simpa [ownFields, List.lookup_cons, List.lookup_append] using h "helper"
  have hdefault : c.defaultValue = d.defaultValue := by
    apply eq_of_rel_string
    simpa [ownFields, List.lookup_cons, List.lookup_append] using h "defaultValue"
  cases c
  cases d
  simp_all

theorem eq_of_same_ref {tag : Tag} {r s : WorkflowRef}
    (h : SameFields (workflowRef tag r).ownFields (workflowRef tag s).ownFields) : r = s := by
  have hname : r.workflowName = s.workflowName := by
    simpa [ownFields, List.lookup_cons] using h "workflowName"
  have hresolved : r.resolved = s.resolved := by
    simpa [ownFields, List.lookup_cons] using h "resolved"
  cases r
  cases s
  simp_all

theorem eq_of_same_unknown {tag : Tag} {u v : Unknown}
    (h : SameFields (unknown tag u).ownFields (unknown tag v).ownFields) : u = v := by
  have hreason : u.reason = v.reason := by
    simpa [ownFields, List.lookup_cons] using h "reason"
  have hsource : u.sourceText = v.sourceText := by
    apply eq_of_rel_string
    simpa [ownFields, List.lookup_cons] using h "sourceText"
  cases u
  cases v
  simp_all

/-- Nodes of the same type and tag are told apart by their own fields, if their children are. -/
theorem eq_of_ownFields {f g : Flow} (hf : f.IsExact) (hg : g.IsExact)
    (hchildren : ∀ c ∈ f.children, ∀ d ∈ g.children, Same c.toJson d.toJson → c = d)
    (htype : f.typeName = g.typeName) (htag : f.tag = g.tag)
    (h : SameFields f.ownFields g.ownFields) : f = g := by
  -- nodes of different types differ in the name of their type
  cases f <;> cases g <;>
    first
    | (simp [typeName] at htype; done)
    | (simp only [tag] at htag; subst htag)
  case step.step tag s s' => rw [Step.eq_of_sameFields hf hg h]
  case sagaStep.sagaStep tag s s' => rw [SagaStep.eq_of_sameFields h]
  case stream.stream tag s s' => rw [Stream.eq_of_sameFields hf hg h]
  case sequence.sequence tag cs ds =>
    have hcs : cs = ds := by
      refine eq_of_same_array hchildren ?_
      simpa [ownFields, List.lookup_cons] using h "children"
    rw [hcs]
  case parallel.parallel tag mode callee cs mode' callee' ds =>
    have hcs : cs = ds := by
      refine eq_of_same_array hchildren ?_
      simpa [ownFields, List.lookup_cons] using h "children"
    have hmode : mode = mode' := by
      apply ParallelMode.name_inj
      simpa [ownFields, List.lookup_cons] using h "mode"
    have hcallee : callee = callee' := by
      simpa [ownFields, List.lookup_cons] using h "callee"
    rw [hcs, hmode, hcallee]
  case race.race tag callee cs callee' ds =>
    have hcs : cs = ds := by
      refine eq_of_same_array hchildren ?_
      simpa [ownFields, List.lookup_cons] using h "children"
    have hcallee : callee = callee' := by
      simpa [ownFields, List.lookup_cons] using h "callee"
    rw [hcs, hcallee]
  case conditional.conditional tag condition cs as condition' ds bs =>
    have hcondition : condition = condition' := eq_of_same_condition h
    have hcs : cs = ds := by
      refine eq_of_same_array (fun c hc d hd => hchildren c ?_ d ?_) ?_
      · simp [children, hc]
      · simp [children, hd]
      · simpa [ownFields, List.lookup_cons, List.lookup_append] using h "consequent"
    have has : as = bs := by
      refine eq_of_rel (fun body hbody body' hbody' => eq_of_same_array fun c hc d hd =>
        hchildren c ?_ d ?_) ?_
      · simp_all [children]
      · simp_all [children]
      · simpa [ownFields, List.lookup_cons, List.lookup_append] using h "alternate"
    rw [hcondition, hcs, has]
  case switch.switch tag expression cases expression' cases' =>
    have hexpression : expression = expression' := by
      simpa [ownFields, List.lookup_cons] using h "expression"
    have hcases : cases = cases' := by
      refine eq_of_same_array (fun c hc d hd => eq_of_same_case fun a ha b hb =>
        hchildren a (List.mem_flatMap.2 ⟨c, hc, ha⟩) b (List.mem_flatMap.2 ⟨d, hd, hb⟩)) ?_
      simpa [ownFields, List.lookup_cons] using h "cases"
    rw [hexpression, hcases]
  case loop.loop tag repetition cs repetition' ds =>
    obtain ⟨hrepetition, hbody⟩ := Repetition.eq_of_sameFields h
    have hcs : cs = ds := eq_of_same_array hchildren hbody
    rw [hrepetition, hcs]
  case workflowRef.workflowRef tag ref ref' => rw [eq_of_same_ref h]
  case unknown.unknown tag u u' => rw [eq_of_same_unknown h]

/-- What is written for a node tells it, down to the nodes below it. -/
theorem eq_of_same {f g : Flow} (hf : ∀ x ∈ f.walk, x.IsExact) (hg : ∀ x ∈ g.walk, x.IsExact)
    (h : Same f.toJson g.toJson) : f = g := by
  induction f using childrenInduction generalizing g with
  | h f ih =>
    obtain ⟨htype, htag, hfields⟩ := parts_of_same h
    rw [walk_eq, List.forall_mem_cons] at hf hg
    refine eq_of_ownFields hf.1 hg.1 (fun c hc d hd hcd => ih c hc ?_ ?_ hcd) htype htag hfields
    · exact fun x hx => hf.2 x (List.mem_flatMap.2 ⟨c, hc, hx⟩)
    · exact fun x hx => hg.2 x (List.mem_flatMap.2 ⟨d, hd, hx⟩)

end Flow

end FlowShape
