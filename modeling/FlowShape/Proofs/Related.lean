import Mathlib.Data.List.Forall2

/-!
# Related options and lists

Options and lists whose entries are related place by place. What is done to both in the same way
keeps them related, and gives the same result if it cannot tell related entries apart.
-/

namespace Option.Rel

variable {α β γ δ : Type} {R : α → β → Prop} {P : γ → δ → Prop} {x : Option α} {y : Option β}

theorem cases_eq (h : Rel R x y) :
    (x = Option.none ∧ y = Option.none) ∨
      ∃ a b, x = Option.some a ∧ y = Option.some b ∧ R a b := by
  cases h with
  | some h => exact .inr ⟨_, _, rfl, rfl, h⟩
  | none => exact .inl ⟨rfl, rfl⟩

theorem isSome_eq (h : Rel R x y) : y.isSome = x.isSome := by
  cases h <;> rfl

theorem imp {S : α → β → Prop} (h : Rel R x y) (hRS : ∀ a b, R a b → S a b) : Rel S x y := by
  cases h with
  | some h => exact .some (hRS _ _ h)
  | none => exact .none

theorem map {f : α → γ} {g : β → δ} (h : Rel R x y) (hfg : ∀ a b, R a b → P (f a) (g b)) :
    Rel P (x.map f) (y.map g) := by
  cases h with
  | some h => exact .some (hfg _ _ h)
  | none => exact .none

theorem map_eq {f : α → γ} {g : β → γ} (h : Rel R x y) (hfg : ∀ a b, R a b → g b = f a) :
    y.map g = x.map f := by
  cases h with
  | some h => exact congrArg Option.some (hfg _ _ h)
  | none => rfl

theorem bind {f : α → Option γ} {g : β → Option δ} (h : Rel R x y)
    (hfg : ∀ a b, R a b → Rel P (f a) (g b)) : Rel P (x.bind f) (y.bind g) := by
  cases h with
  | some h => exact hfg _ _ h
  | none => exact .none

theorem bind_same {f : γ → Option α} {g : γ → Option β} (z : Option γ)
    (hfg : ∀ c, Rel R (f c) (g c)) : Rel R (z.bind f) (z.bind g) := by
  cases z with
  | some c => exact hfg c
  | none => exact .none

theorem bind_eq {f : α → Option γ} {g : β → Option γ} (h : Rel R x y)
    (hfg : ∀ a b, R a b → g b = f a) : y.bind g = x.bind f := by
  cases h with
  | some h => exact hfg _ _ h
  | none => rfl

theorem filter {p : α → Bool} {q : β → Bool} (h : Rel R x y) (hpq : ∀ a b, R a b → q b = p a) :
    Rel R (x.filter p) (y.filter q) := by
  cases h with
  | none => exact .none
  | @some a b h =>
    rw [Option.filter_some, Option.filter_some, hpq a b h]
    split
    · exact .some h
    · exact .none

theorem orElse {x' : Option α} {y' : Option β} (h : Rel R x y) (h' : Rel R x' y') :
    Rel R (x <|> x') (y <|> y') := by
  cases h with
  | some h => exact .some h
  | none => exact h'

theorem toList (h : Rel R x y) : List.Forall₂ R x.toList y.toList := by
  cases h with
  | some h => exact .cons h .nil
  | none => exact .nil

end Option.Rel

namespace List.Forall₂

variable {α β γ : Type} {R : α → β → Prop} {xs : List α} {ys : List β}

theorem imp_of_mem {S : α → β → Prop} (h : Forall₂ R xs ys)
    (hRS : ∀ a ∈ xs, ∀ b, R a b → S a b) : Forall₂ S xs ys :=
  ((List.forall₂_and_left xs ys).2 ⟨hRS, h⟩).imp fun _ _ hab => hab.1 _ hab.2

theorem find? {p : α → Bool} {q : β → Bool} (h : Forall₂ R xs ys)
    (hpq : ∀ a b, R a b → q b = p a) : Option.Rel R (xs.find? p) (ys.find? q) := by
  induction h with
  | nil => exact .none
  | @cons a b xs ys hab _ ih =>
    rw [List.find?_cons, List.find?_cons, hpq a b hab]
    split
    · exact .some hab
    · exact ih

theorem eraseP {p : α → Bool} {q : β → Bool} (h : Forall₂ R xs ys)
    (hpq : ∀ a b, R a b → q b = p a) : Forall₂ R (xs.eraseP p) (ys.eraseP q) := by
  induction h with
  | nil => exact .nil
  | @cons a b xs ys hab hrest ih =>
    rw [List.eraseP_cons, List.eraseP_cons, hpq a b hab]
    cases p a with
    | true => exact hrest
    | false => exact .cons hab ih

theorem getElem? (h : Forall₂ R xs ys) (i : Nat) : Option.Rel R xs[i]? ys[i]? := by
  induction h generalizing i with
  | nil => exact .none
  | cons hab _ ih =>
    cases i with
    | zero => exact .some hab
    | succ i => simpa using ih i

theorem head? (h : Forall₂ R xs ys) : Option.Rel R xs.head? ys.head? := by
  cases h with
  | nil => exact .none
  | cons hab _ => exact .some hab

theorem getLast? (h : Forall₂ R xs ys) : Option.Rel R xs.getLast? ys.getLast? := by
  rw [← List.head?_reverse, ← List.head?_reverse]
  exact (List.rel_reverse h).head?

theorem isEmpty_eq (h : Forall₂ R xs ys) : ys.isEmpty = xs.isEmpty := by
  cases h <;> rfl

theorem filter {p : α → Bool} {q : β → Bool} (h : Forall₂ R xs ys)
    (hpq : ∀ a b, R a b → q b = p a) : Forall₂ R (xs.filter p) (ys.filter q) :=
  List.rel_filter (fun a b hab => by simp only [hpq a b hab]) h

theorem map_eq {f : α → γ} {g : β → γ} (h : Forall₂ R xs ys) (hfg : ∀ a b, R a b → g b = f a) :
    ys.map g = xs.map f := by
  induction h with
  | nil => rfl
  | @cons a b xs ys hab _ ih => rw [List.map_cons, List.map_cons, hfg a b hab, ih]

theorem flatMap_eq {f : α → List γ} {g : β → List γ} (h : Forall₂ R xs ys)
    (hfg : ∀ a b, R a b → g b = f a) : ys.flatMap g = xs.flatMap f := by
  rw [List.flatMap_def, List.flatMap_def, h.map_eq hfg]

theorem foldl_eq {f : γ → α → γ} {g : γ → β → γ} (h : Forall₂ R xs ys)
    (hfg : ∀ c a b, R a b → g c b = f c a) (c : γ) : ys.foldl g c = xs.foldl f c := by
  induction h generalizing c with
  | nil => rfl
  | @cons a b xs ys hab _ ih => rw [List.foldl_cons, List.foldl_cons, hfg c a b hab, ih]

end List.Forall₂
