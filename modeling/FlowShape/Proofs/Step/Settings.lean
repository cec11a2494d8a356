import Mathlib.Data.List.Induction
import FlowShape.Outline.Reading
import FlowShape.Proofs.Table

/-!
# Settings by the values of their keys

A setting is told by the values that an object literal gives to its keys. Most readers go through
the entries and let a later value replace an earlier one, so the last value counts. A value that is
not understood may be passed over, and then the last one that is understood counts. A lookup takes
the first value instead.
-/

namespace FlowShape

/-- The values that entries give to some keys, in their order. -/
def valuesOf (keys : List String) (entries : List (String × Node)) : List Node :=
  (entries.filter (·.1 ∈ keys)).map (·.2)

/-- The values that an object literal gives to some keys. -/
def Source.values (src : Source) (object : Node) (keys : List String) : List Node :=
  valuesOf keys (src.entries object)

section

variable {keys : List String} {key : String} {entries entries' : List (String × Node)}

@[simp] theorem valuesOf_append :
    valuesOf keys (entries ++ entries') = valuesOf keys entries ++ valuesOf keys entries' := by
  simp [valuesOf]

theorem valuesOf_flatMap {α : Type} {xs : List α} {f : α → List (String × Node)} :
    valuesOf keys (xs.flatMap f) = xs.flatMap fun x => valuesOf keys (f x) := by
  simp [valuesOf, List.filter_flatMap, List.map_flatMap]

theorem valuesOf_singleton {e : String × Node} :
    valuesOf keys [e] = if e.1 ∈ keys then [e.2] else [] := by
  by_cases he : e.1 ∈ keys <;> simp [valuesOf, he]

theorem valuesOf_filter {p : String → Bool} (h : ∀ key ∈ keys, p key) :
    valuesOf keys (entries.filter fun e => p e.1) = valuesOf keys entries := by
  rw [valuesOf, List.filter_filter, valuesOf]
  refine congrArg (List.map Prod.snd) (List.filter_congr fun e _ => ?_)
  by_cases he : e.1 ∈ keys <;> simp [he, h]

variable {σ β : Type} {f : σ → String × Node → σ} {p : σ → Option β} {g : Node → Option β} {s : σ}

/-- What a field holds after some entries, if it holds nothing at first and an entry with one of the
keys replaces what it holds, unless its value is passed over. -/
theorem foldl_eq_last_heeded {heeds : Node → Bool} (hs : p s = none)
    (h : ∀ s e, p (f s e) = if e.1 ∈ keys ∧ heeds e.2 then g e.2 else p s) :
    p (entries.foldl f s) = ((valuesOf keys entries).filter heeds).getLast?.bind g := by
  induction entries using List.reverseRecOn with
  | nil => exact hs
  | append_singleton entries e ih =>
    rw [List.foldl_concat, h, valuesOf_append, valuesOf_singleton]
    by_cases he : e.1 ∈ keys ∧ heeds e.2
    · simp [he]
    · rw [if_neg he, ih]
      by_cases hkey : e.1 ∈ keys <;> simp_all

theorem foldl_eq_last (hs : p s = none)
    (h : ∀ s e, p (f s e) = if e.1 ∈ keys then g e.2 else p s) :
    p (entries.foldl f s) = (valuesOf keys entries).getLast?.bind g := by
  have hlast : p (entries.foldl f s) =
      ((valuesOf keys entries).filter fun _ => true).getLast?.bind g :=
    foldl_eq_last_heeded hs fun s e => by simpa using h s e
  rwa [List.filter_true] at hlast

end

theorem Source.property?_eq_head? (src : Source) (object : Node) (key : String) :
    src.property? object key = (src.values object [key]).head? := by
  have hkey : (fun e : String × Node => e.1 == key) = fun e => decide (e.1 ∈ [key]) := by
    funext e
    rw [Bool.eq_iff_iff]
    simp
  rw [property?, values, valuesOf, hkey, List.head?_map, List.head?_filter]

/-! ## Retry settings -/

attribute [ext] Retry Timeout StepSettings Stream

namespace Retry

/-- Retry settings by the values of keys. A delay has two names. -/
def ofValues (src : Source) (values : List String → List Node) : Retry where
  attempts := (values ["attempts"]).getLast?.map fun v => src.numeric v.unwrap
  backoff := (values ["backoff"]).getLast?.map fun v => src.staticString v.unwrap
  baseDelay := (values ["baseDelay", "initialDelay"]).getLast?.map fun v => src.numeric v.unwrap
  maxDelay := (values ["maxDelay"]).getLast?.map fun v => src.numeric v.unwrap

theorem foldl_set_eq (src : Source) (entries : List (String × Node)) :
    entries.foldl (set src) {} = ofValues src (valuesOf · entries) := by
  ext1
  all_goals
    simp only [ofValues, Option.map_eq_bind]
    refine foldl_eq_last ?_ ?_
    · rfl
    · rintro s ⟨key, value⟩
      simp only [set]
      split <;> simp_all

/-- The keys of retry settings. -/
def keys : List String := ["attempts", "backoff", "baseDelay", "initialDelay", "maxDelay"]

theorem read?_eq (src : Source) (object : Node) :
    read? src object =
      if src.values object keys = [] then none else some (ofValues src (src.values object)) := by
  have hkept : (src.entries object).filter (fun e => isKey e.1) =
      (src.entries object).filter (·.1 ∈ keys) := rfl
  have hempty : ((src.entries object).filter fun e => isKey e.1).isEmpty ↔
      src.values object keys = [] := by
    rw [hkept, Source.values, valuesOf, List.map_eq_nil_iff, List.isEmpty_iff]
  have hvalues : ofValues src (valuesOf · ((src.entries object).filter fun e => isKey e.1)) =
      ofValues src (src.values object) := by
    simp only [ofValues, Source.values]
    rw [valuesOf_filter (by decide), valuesOf_filter (by decide), valuesOf_filter (by decide),
      valuesOf_filter (by decide)]
  simp only [read?, hempty, foldl_set_eq, hvalues]

end Retry

theorem Timeout.read?_eq (src : Source) (object : Node) :
    read? src object =
      (src.values object ["ms"]).head?.map fun v => ⟨some (src.numeric v.unwrap)⟩ := by
  rw [read?, Source.property?_eq_head?]

/-! ## Settings of steps -/

namespace StepSettings

/-- Whether the value of `retry` is understood. -/
def tellsRetry (value : Node) : Bool :=
  value.unwrap.kind = .object || value.unwrap.kind = .number

/-- The settings that a value of `retry` stands for, if it is understood. -/
def retryOf (src : Source) (value : Node) : Retry :=
  if value.unwrap.kind = .object then (Retry.read? src value.unwrap).getD {}
  else { attempts := some (src.numeric value.unwrap) }

/-- The timeout that a value of `timeout` stands for. -/
def timeoutOf (src : Source) (value : Node) : Timeout :=
  if value.unwrap.kind = .object then (Timeout.read? src value.unwrap).getD {}
  else ⟨some (src.numeric value.unwrap)⟩

/-- Settings by the values of keys. -/
def ofValues (src : Source) (values : List String → List Node) : StepSettings where
  key := (values ["key"]).getLast?.map fun v => src.staticString v.unwrap
  name := (values ["name"]).getLast?.map fun v => src.staticString v.unwrap
  description := (values ["description"]).getLast?.bind fun v => src.stringLiteral? v.unwrap
  markdown := (values ["markdown"]).getLast?.bind fun v => src.stringLiteral? v.unwrap
  retry := ((values ["retry"]).filter tellsRetry).getLast?.map (retryOf src)
  timeout := (values ["timeout"]).getLast?.map (timeoutOf src)

theorem read_eq (src : Source) (object : Node) :
    read src object = ofValues src (src.values object) := by
  ext1
  all_goals simp only [ofValues, Option.map_eq_bind]
  case retry =>
    refine foldl_eq_last_heeded ?_ ?_
    · rfl
    · rintro s ⟨key, value⟩
      simp only [set, tellsRetry]
      split <;> grind [retryOf]
  all_goals
    refine foldl_eq_last ?_ ?_
    · rfl
    · rintro s ⟨key, value⟩
      simp only [set]
      split <;> grind [timeoutOf]

end StepSettings

/-! ## Streams -/

namespace Stream

/-- What the entries of options make of a stream. -/
def ofEntries (src : Source) (kind : StreamKind) (entries : List (String × Node)) : Stream :=
  entries.foldl (Reader.streamEntry src) ⟨kind, none, []⟩

/-- Whether the value of an option is kept. -/
def keepsOption (value : Node) : Bool := !value.unwrap.isFunctionLiteral

variable (src : Source) (kind : StreamKind) (entries : List (String × Node))

variable {src kind entries} in
/-- What holds of a stream without options and is kept by each entry holds in the end. -/
theorem ofEntries_induction {P : Stream → Prop} (hnone : P ⟨kind, none, []⟩)
    (hentry : ∀ stream e, P stream → P (Reader.streamEntry src stream e)) :
    P (ofEntries src kind entries) :=
  List.foldlRecOn entries _ hnone fun stream h e _ => hentry stream e h

theorem kind_ofEntries : (ofEntries src kind entries).kind = kind := by
  refine ofEntries_induction (P := fun stream => stream.kind = kind) rfl fun stream e h => ?_
  grind [Reader.streamEntry]

theorem channel_ofEntries : (ofEntries src kind entries).channel =
    (valuesOf ["namespace"] entries).getLast?.map fun v => src.staticString v.unwrap := by
  rw [Option.map_eq_bind]
  refine foldl_eq_last ?_ ?_
  · rfl
  · rintro stream ⟨key, value⟩
    grind [Reader.streamEntry]

theorem sorted_options_ofEntries : Table.Sorted (ofEntries src kind entries).options := by
  refine ofEntries_induction (P := fun stream => Table.Sorted stream.options) .nil
    fun stream e h => ?_
  grind [Reader.streamEntry, Table.Sorted.insert]

theorem lookup_options_ofEntries (key : String) :
    (ofEntries src kind entries).options.lookup key =
      if key = "namespace" then none
      else ((valuesOf [key] entries).filter keepsOption).getLast?.map fun v =>
        src.numeric v.unwrap := by
  split_ifs with hkey
  · refine ofEntries_induction (P := fun stream => stream.options.lookup key = none) rfl
      fun stream e h => ?_
    grind [Reader.streamEntry]
  · rw [Option.map_eq_bind]
    refine foldl_eq_last_heeded (p := fun stream : Stream => stream.options.lookup key) rfl ?_
    rintro stream ⟨name, value⟩
    grind [Reader.streamEntry, keepsOption]

end Stream

end FlowShape
