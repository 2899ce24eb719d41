/-!
# Values under a condition

Generated code is assembled from parts that are there or not. `onlyIf` gives such a part as a
list of at most one element, so that parts are joined by `++`.
-/

namespace EntityScaffold

/-- A value, if a condition holds. -/
def onlyIf (condition : Bool) (a : α) : List α := if condition then [a] else []

@[simp] theorem onlyIf_true (a : α) : onlyIf true a = [a] := rfl

@[simp] theorem onlyIf_false (a : α) : onlyIf false a = [] := rfl

theorem mem_onlyIf {condition : Bool} {a b : α} :
    b ∈ onlyIf condition a ↔ condition = true ∧ b = a := by
  cases condition <;> simp

end EntityScaffold
