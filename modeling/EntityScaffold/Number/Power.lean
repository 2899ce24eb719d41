/-!
# Powers and totals of natural numbers

Powers of two and of ten, and the total of a number over a list.
-/

namespace EntityScaffold

/-- A power of two. -/
def twoTo (n : Nat) : Nat := Nat.pow 2 n

/-- A power of ten. -/
def tenTo (n : Nat) : Nat := Nat.pow 10 n

/-- The total of a number over the members of a list. -/
def totalOf (f : α → Nat) : List α → Nat
  | [] => 0
  | a :: rest => f a + totalOf f rest

@[simp] theorem totalOf_nil (f : α → Nat) : totalOf f [] = 0 := rfl

@[simp] theorem totalOf_cons (f : α → Nat) (a : α) (rest : List α) :
    totalOf f (a :: rest) = f a + totalOf f rest := rfl

@[simp] theorem totalOf_map {β : Type} (f : β → Nat) (g : α → β) (l : List α) :
    totalOf f (l.map g) = totalOf (fun a => f (g a)) l := by
  induction l with
  | nil => rfl
  | cons a rest ih => simp [ih]

/-- The order does not matter to a total. -/
theorem totalOf_perm (f : α → Nat) {xs ys : List α} (h : xs.Perm ys) :
    totalOf f xs = totalOf f ys := by
  induction h with
  | nil => rfl
  | cons a _ ih => rw [totalOf_cons, totalOf_cons, ih]
  | swap a b l => simp only [totalOf_cons, Nat.add_left_comm]
  | trans _ _ ih₁ ih₂ => exact ih₁.trans ih₂

end EntityScaffold
