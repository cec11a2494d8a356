import Mathlib.Data.List.Sort
import FlowShape.Names

/-!
# Tables

A table is sorted by its keys, each of which it holds once. What it holds is then told by looking
keys up, and two tables that answer alike are the same.
-/

namespace FlowShape.Table

variable {α : Type}

/-- The keys of a table increase. -/
def Sorted (table : List (String × α)) : Prop := table.Pairwise (·.1 < ·.1)

instance (table : List (String × α)) : Decidable (Sorted table) :=
  inferInstanceAs (Decidable (table.Pairwise (·.1 < ·.1)))

variable {key name : String} {value a : α} {table : List (String × α)}

/-- Putting in a value changes what stands under its key and nothing else. -/
@[grind =] theorem lookup_insert :
    (insert key value table).lookup name =
      if name = key then some value else table.lookup name := by
  fun_induction insert key value table <;> grind

theorem key_of_mem_insert {p : String × α} (h : p ∈ insert key value table) :
    p.1 = key ∨ p.1 ∈ table.map (·.1) := by
  fun_induction insert key value table <;> grind

theorem Sorted.insert (h : Sorted table) : Sorted (insert key value table) := by
  unfold Sorted at *
  fun_induction Table.insert key value table with
  | case1 => simp
  | case2 k v rest hlt => grind [List.pairwise_cons, String.lt_trans]
  | case3 v rest => grind [List.pairwise_cons]
  | case4 k v rest hlt heq ih =>
    obtain ⟨hk, hrest⟩ := List.pairwise_cons.1 h
    have hbefore : k < key := by grind
    refine List.pairwise_cons.2 ⟨fun p hp => ?_, ih hrest⟩
    grind [key_of_mem_insert hp]

theorem Sorted.mem_iff_lookup (h : Sorted table) :
    (name, a) ∈ table ↔ table.lookup name = some a := by
  unfold Sorted at h
  induction table with
  | nil => simp
  | cons p rest ih => grind [List.pairwise_cons, String.lt_irrefl]

/-- Sorted tables in which the same stands under each key are the same. -/
theorem Sorted.ext {table' : List (String × α)} (h : Sorted table) (h' : Sorted table')
    (hlookup : ∀ name, table.lookup name = table'.lookup name) : table = table' := by
  have : Std.Irrefl fun p q : String × α => p.1 < q.1 := ⟨fun p => String.lt_irrefl p.1⟩
  have : Std.Antisymm fun p q : String × α => p.1 < q.1 :=
    ⟨fun p q hpq hqp => absurd hqp (String.lt_asymm hpq)⟩
  refine List.Pairwise.eq_of_mem_iff h h' ?_
  rintro ⟨name, a⟩
  rw [h.mem_iff_lookup, h'.mem_iff_lookup, hlookup]

end FlowShape.Table
