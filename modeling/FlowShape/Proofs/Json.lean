import Mathlib.Data.List.Forall2
import Mathlib.Algebra.Order.Field.Rat
import FlowShape.Json
import FlowShape.Proofs.Table

/-!
# Equality of JSON values

Two JSON values are the same if they differ in the order of fields and the notation of numbers only.
What a record puts into an object is then told by looking its fields up, also where fields are left
out: a field that is absent on one side is absent on the other.
-/

namespace FlowShape.Json

/-- The value of a number. -/
def number? : Json → Option Rat
  | integer n => some n
  | decimal d => some (d.significand * (10 : Rat) ^ d.exponent)
  | _ => none

/-- Equality of JSON values. -/
inductive Same : Json → Json → Prop
  | null : Same null null
  | bool (b : Bool) : Same (bool b) (bool b)
  | number {a b : Json} {q : Rat} : a.number? = some q → b.number? = some q → Same a b
  | string (s : String) : Same (string s) (string s)
  | array {xs ys : List Json} : List.Forall₂ Same xs ys → Same (array xs) (array ys)
  | object {fs gs : List (String × Json)} :
      (∀ name, Option.Rel Same (fs.lookup name) (gs.lookup name)) → Same (object fs) (object gs)

mutual

theorem Same.refl : ∀ j : Json, Same j j
  | .null => .null
  | .bool b => .bool b
  | .integer _ => .number rfl rfl
  | .decimal _ => .number rfl rfl
  | .string s => .string s
  | .array xs => .array (Same.refl_items xs)
  | .object fs => .object (Same.refl_fields fs)

theorem Same.refl_items : ∀ xs : List Json, List.Forall₂ Same xs xs
  | [] => .nil
  | x :: xs => .cons (Same.refl x) (Same.refl_items xs)

theorem Same.refl_fields : ∀ (fs : List (String × Json)) (name : String),
    Option.Rel Same (fs.lookup name) (fs.lookup name)
  | [], _ => .none
  | (key, value) :: fs, name => by
    rw [List.lookup_cons]
    split
    · exact .some (Same.refl value)
    · exact Same.refl_fields fs name

end

/-! ## Single values -/

@[simp] theorem same_string_iff {s t : String} : Same (string s) (string t) ↔ s = t := by
  refine ⟨fun h => ?_, fun h => h ▸ .string s⟩
  cases h with
  | number h => cases h
  | string => rfl

@[simp] theorem same_bool_iff {b c : Bool} : Same (bool b) (bool c) ↔ b = c := by
  refine ⟨fun h => ?_, fun h => h ▸ .bool b⟩
  cases h with
  | number h => cases h
  | bool => rfl

@[simp] theorem same_integer_iff {m n : Int} : Same (integer m) (integer n) ↔ m = n := by
  refine ⟨fun h => ?_, fun h => h ▸ .refl _⟩
  cases h with
  | number hm hn =>
    have hvalue := hm.trans hn.symm
    simpa [number?] using hvalue

@[simp] theorem same_nat_iff {m n : Nat} : Same (nat m) (nat n) ↔ m = n := by
  simp [nat]

theorem Same.items {xs ys : List Json} (h : Same (.array xs) (.array ys)) :
    List.Forall₂ Same xs ys := by
  cases h with
  | number h => cases h
  | array h => exact h

/-- The same values stand under the same names. -/
def SameFields (fs gs : List (String × Json)) : Prop :=
  ∀ name, Option.Rel Same (fs.lookup name) (gs.lookup name)

theorem Same.fields {fs gs : List (String × Json)} (h : Same (.object fs) (.object gs)) :
    SameFields fs gs := by
  cases h with
  | number h => cases h
  | object h => exact h

/-! ## Lists and fields -/

section

variable {α : Type} {write : α → Json}

theorem eq_of_same_array {as bs : List α}
    (hwrite : ∀ a ∈ as, ∀ b ∈ bs, Same (write a) (write b) → a = b)
    (h : Same (array (as.map write)) (array (bs.map write))) : as = bs := by
  have hitems := h.items
  rw [List.forall₂_map_left_iff, List.forall₂_map_right_iff] at hitems
  clear h
  induction hitems with
  | nil => rfl
  | @cons a b as bs hab _ ih =>
    have hrest := ih fun a ha b hb => hwrite a (by simp [ha]) b (by simp [hb])
    rw [hwrite a (by simp) b (by simp) hab, hrest]

@[simp] theorem rel_some_iff {a b : Json} : Option.Rel Same (some a) (some b) ↔ Same a b :=
  ⟨fun h => by cases h; assumption, .some⟩

theorem eq_of_rel {o p : Option α}
    (hwrite : ∀ a ∈ o, ∀ b ∈ p, Same (write a) (write b) → a = b)
    (h : Option.Rel Same (o.map write) (p.map write)) : o = p := by
  cases o with
  | none =>
    cases p with
    | none => rfl
    | some b => cases h
  | some a =>
    cases p with
    | none => cases h
    | some b => rw [hwrite a rfl b rfl (rel_some_iff.1 h)]

@[simp] theorem lookup_optional {name key : String} {o : Option α} :
    (optional key write o).lookup name = if name = key then o.map write else none := by
  cases o <;> grind [optional]

/-- A field that is left out on a condition. -/
@[simp] theorem lookup_unless {name key : String} {value : Json} {c : Prop} [Decidable c] :
    (if c then [] else [(key, value)]).lookup name =
      if name = key then if c then none else some value else none := by
  grind

/-- Tables are written as objects, and sorted ones are told apart by them. -/
theorem eq_of_same_table {s t : List (String × α)} (hs : Table.Sorted s) (ht : Table.Sorted t)
    (hwrite : ∀ p ∈ s, ∀ q ∈ t, Same (write p.2) (write q.2) → p.2 = q.2)
    (h : Same (object (s.map fun p => (p.1, write p.2)))
      (object (t.map fun p => (p.1, write p.2)))) : s = t := by
  have hlookup (table : List (String × α)) (name : String) :
      (table.map fun p => (p.1, write p.2)).lookup name = (table.lookup name).map write := by
    induction table with
    | nil => rfl
    | cons p table ih => grind
  refine hs.ext ht fun name => ?_
  have hname := h.fields name
  rw [hlookup, hlookup] at hname
  refine eq_of_rel (fun a ha b hb => ?_) hname
  exact hwrite (name, a) (hs.mem_iff_lookup.2 ha) (name, b) (ht.mem_iff_lookup.2 hb)

/-- An empty table is left out. -/
theorem eq_of_rel_table {s t : List (String × α)} (hs : Table.Sorted s) (ht : Table.Sorted t)
    (hwrite : ∀ p ∈ s, ∀ q ∈ t, Same (write p.2) (write q.2) → p.2 = q.2)
    (h : Option.Rel Same
      (if s = [] then none else some (object (s.map fun p => (p.1, write p.2))))
      (if t = [] then none else some (object (t.map fun p => (p.1, write p.2))))) : s = t := by
  split at h <;> split at h
  · next hempty hempty' => rw [hempty, hempty']
  · cases h
  · cases h
  · exact eq_of_same_table hs ht hwrite (rel_some_iff.1 h)

end

theorem eq_of_rel_string {o p : Option String}
    (h : Option.Rel Same (o.map string) (p.map string)) : o = p :=
  eq_of_rel (fun _ _ _ _ => same_string_iff.1) h

theorem eq_of_same_strings {ss ts : List String} (h : Same (strings ss) (strings ts)) : ss = ts :=
  eq_of_same_array (fun _ _ _ _ => same_string_iff.1) h

end FlowShape.Json
