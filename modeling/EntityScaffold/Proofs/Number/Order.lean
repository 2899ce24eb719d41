import EntityScaffold.Number.Binary64
import Mathlib.Algebra.Order.Field.Power
import Mathlib.Algebra.Order.Field.Rat
import Mathlib.Order.WithBot
import Mathlib.Tactic.Linarith

/-!
# The order of double-precision numbers

Numbers are compared by their signs, mantissas and exponents. What is compared is what they mean: a
finite one a fraction, an infinite one something beyond all fractions, and `nan` nothing.

* `Binary64.value?`: what a number means.

Results:
* `Binary64.magnitudeLt_iff`: mantissas at a common exponent are in the order of the magnitudes.
* `Binary64.lt_iff`: one number is less than another exactly when both mean something and the
  meanings are so.
-/

namespace EntityScaffold.Binary64

/-- The magnitude of a finite number. -/
def magnitude (mantissa : Nat) (exponent : Int) : ℚ := mantissa * 2 ^ exponent

/-- A finite number as a fraction. -/
def signed (negative : Bool) (mantissa : Nat) (exponent : Int) : ℚ :=
  if negative then -magnitude mantissa exponent else magnitude mantissa exponent

/-- What a number means. -/
def value? : Binary64 → Option (WithBot (WithTop ℚ))
  | .nan => none
  | .infinite true => some ⊥
  | .infinite false => some (⊤ : WithTop ℚ)
  | .finite n m e => some ((signed n m e : WithTop ℚ))

theorem magnitude_nonneg (m : Nat) (e : Int) : 0 ≤ magnitude m e :=
  mul_nonneg (Nat.cast_nonneg m) (zpow_nonneg (by norm_num) e)

theorem magnitude_pos_iff {m : Nat} {e : Int} : 0 < magnitude m e ↔ m ≠ 0 := by
  unfold magnitude
  rw [mul_pos_iff_of_pos_right (zpow_pos (by norm_num) e), Nat.cast_pos, Nat.pos_iff_ne_zero]

/-- A magnitude at an exponent that is not greater. -/
theorem magnitude_eq {low e : Int} (h : low ≤ e) (m : Nat) :
    magnitude m e = (m * twoTo (e - low).natAbs : Nat) * 2 ^ low := by
  have hexponent : ((e - low).natAbs : Int) = e - low := Int.natAbs_of_nonneg (by omega)
  have hpower : ((twoTo (e - low).natAbs : Nat) : ℚ) = 2 ^ (e - low) := by
    show ((2 ^ (e - low).natAbs : Nat) : ℚ) = 2 ^ (e - low)
    rw [Nat.cast_pow, ← zpow_natCast, hexponent]
    rfl
  have hsum : e - low + low = e := by omega
  unfold magnitude
  rw [Nat.cast_mul, hpower, mul_assoc, ← zpow_add₀ (by norm_num), hsum]

/-- Mantissas at a common exponent are in the order of the magnitudes. -/
theorem magnitudeLt_iff {m m' : Nat} {e e' : Int} :
    magnitudeLt m e m' e' = true ↔ magnitude m e < magnitude m' e' := by
  have hlow : (0 : ℚ) < 2 ^ min e e' := zpow_pos (by norm_num) _
  rw [magnitude_eq (min_le_left e e'), magnitude_eq (min_le_right e e'), mul_lt_mul_iff_left₀ hlow,
    Nat.cast_lt]
  exact decide_eq_true_iff

/-- Finite numbers are in the order of their fractions. -/
theorem finite_lt_iff {n n' : Bool} {m m' : Nat} {e e' : Int} :
    lt (.finite n m e) (.finite n' m' e') = true ↔ signed n m e < signed n' m' e' := by
  have hm := magnitude_nonneg m e
  have hm' := magnitude_nonneg m' e'
  cases n <;> cases n'
  · exact magnitudeLt_iff
  · exact iff_of_false Bool.false_ne_true (by show ¬ magnitude m e < -magnitude m' e'; linarith)
  · -- zeros are equal whatever their signs
    show (decide (m ≠ 0) || decide (m' ≠ 0)) = true ↔ -magnitude m e < magnitude m' e'
    rw [Bool.or_eq_true, decide_eq_true_iff, decide_eq_true_iff, ← magnitude_pos_iff (e := e),
      ← magnitude_pos_iff (e := e'), neg_lt_iff_pos_add]
    exact ⟨fun h => h.elim (fun h => by linarith) (fun h => by linarith), fun h => by
      by_contra hzero
      rw [not_or] at hzero
      linarith⟩
  · show magnitudeLt m' e' m e = true ↔ -magnitude m e < -magnitude m' e'
    rw [neg_lt_neg_iff]
    exact magnitudeLt_iff

theorem lt_iff_of_value? {x y : Binary64} {a b : WithBot (WithTop ℚ)} (hx : x.value? = some a)
    (hy : y.value? = some b) : lt x y = true ↔ a < b := by
  cases x with
  | nan => cases hx
  | infinite n =>
    cases y with
    | nan => cases hy
    | infinite n' => cases n <;> cases n' <;> cases hx <;> cases hy <;> simp [lt]
    | finite n' m' e' => cases n <;> cases hx <;> cases hy <;> simp [lt]
  | finite n m e =>
    cases hx
    cases y with
    | nan => cases hy
    | infinite n' =>
      cases n' with
      | false =>
        cases hy
        exact iff_of_true rfl (WithBot.coe_lt_coe.mpr (WithTop.coe_lt_top _))
      | true =>
        cases hy
        exact iff_of_false Bool.false_ne_true not_lt_bot
    | finite n' m' e' =>
      cases hy
      rw [finite_lt_iff, WithBot.coe_lt_coe, WithTop.coe_lt_coe]

theorem value?_eq_none_iff {x : Binary64} : x.value? = none ↔ x = .nan := by
  cases x with
  | nan => exact iff_of_true rfl rfl
  | infinite n => cases n <;> exact iff_of_false nofun nofun
  | finite n m e => exact iff_of_false nofun nofun

/-- **The order of numbers is that of what they mean.** `nan` means nothing, so nothing is less or
greater than it. -/
theorem lt_iff {x y : Binary64} :
    lt x y = true ↔ ∃ a b, x.value? = some a ∧ y.value? = some b ∧ a < b := by
  constructor
  · intro h
    cases hx : x.value? with
    | none =>
      obtain rfl := value?_eq_none_iff.mp hx
      cases h
    | some a =>
      cases hy : y.value? with
      | none =>
        obtain rfl := value?_eq_none_iff.mp hy
        cases x <;> cases h
      | some b => exact ⟨a, b, rfl, rfl, (lt_iff_of_value? hx hy).mp h⟩
  · rintro ⟨a, b, hx, hy, hab⟩
    exact (lt_iff_of_value? hx hy).mpr hab

end EntityScaffold.Binary64
