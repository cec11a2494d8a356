/-!
# Sets of names

A set of names is a list in increasing order of code points, each name once. A table is kept the
same way by its keys.
-/

namespace FlowShape

namespace Names

def insert (name : String) : List String → List String
  | [] => [name]
  | n :: ns =>
    if name < n then name :: n :: ns else if name = n then n :: ns else n :: insert name ns

def ofList (names : List String) : List String := names.foldr insert []

@[simp] theorem mem_insert {a name : String} {ns : List String} :
    a ∈ insert name ns ↔ a = name ∨ a ∈ ns := by
  induction ns with
  | nil => simp [insert]
  | cons n ns ih =>
    unfold insert
    split
    · simp
    · split
      · next h => simp [h]
      · simp [ih, or_left_comm]

@[simp] theorem mem_ofList {a : String} {names : List String} : a ∈ ofList names ↔ a ∈ names := by
  induction names with
  | nil => simp [ofList]
  | cons n ns ih => simpa [ofList] using or_congr_right ih

end Names

namespace Table

/-- Puts a value under a key, in place of any value that the key had. -/
def insert {α : Type} (key : String) (value : α) : List (String × α) → List (String × α)
  | [] => [(key, value)]
  | (k, v) :: rest =>
    if key < k then (key, value) :: (k, v) :: rest
    else if key = k then (key, value) :: rest
    else (k, v) :: insert key value rest

end Table

end FlowShape
