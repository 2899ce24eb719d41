import EntityScaffold.Number.Power

/-!
# Double-precision numbers

Bounds of numeric ranges are binary64 numbers. They are held as what they mean, a sign, a
mantissa and a power of two, so that reading, comparing and printing them is exact arithmetic on
natural numbers.

* `ofRatio`: a quotient of natural numbers rounded to the nearest number, ties to the even
  mantissa.
* `ofDecimal`: a decimal literal, rounded the same way.
* `lt`: the order of the numbers; nothing is less or greater than `nan`.
-/

namespace EntityScaffold

/-- A binary64 number. A finite one is `mantissa * 2 ^ exponent` with its sign; the functions
below build them with `mantissa < 2 ^ 53`, and with `2 ^ 52 ≤ mantissa` unless the exponent is
the least one, so that equal numbers of equal sign are equal values. -/
inductive Binary64 where
  | nan
  | infinite (negative : Bool)
  | finite (negative : Bool) (mantissa : Nat) (exponent : Int)
  deriving DecidableEq, Inhabited

namespace Binary64

/-- The least exponent. -/
def minExponent : Int := -1074

/-- The greatest exponent. -/
def maxExponent : Int := 971

/-- Zero with a sign. -/
def zero (negative : Bool) : Binary64 := .finite negative 0 minExponent

/-- The quotient of two natural numbers times a power of two, as numerator and denominator. -/
def scaled (num den : Nat) (exponent : Int) : Nat × Nat :=
  if exponent < 0 then (num, den * twoTo exponent.natAbs) else (num * twoTo exponent.natAbs, den)

/-- The nearest natural number to a quotient, ties to even. -/
def roundDiv (num den : Nat) : Nat :=
  let q := num / den
  let r := num % den
  if 2 * r < den then q
  else if den < 2 * r then q + 1
  else if q % 2 = 0 then q else q + 1

/-- The exponent `k` with `2 ^ k ≤ num / den < 2 ^ (k + 1)`, for positive arguments. -/
def floorLog2 (num den : Nat) : Int :=
  let k : Int := (num.log2 : Int) - (den.log2 : Int)
  let (n, d) := scaled num den (-k)
  if n < d then k - 1 else k

/-- The number nearest to `num / den`, ties to the even mantissa. -/
def ofRatio (negative : Bool) (num den : Nat) : Binary64 :=
  if num = 0 then zero negative
  else
    let exponent := max minExponent (floorLog2 num den - 52)
    let (n, d) := scaled num den (-exponent)
    let m := roundDiv n d
    let (m, exponent) := if m = twoTo 53 then (twoTo 52, exponent + 1) else (m, exponent)
    if maxExponent < exponent then .infinite negative else .finite negative m exponent

/-- The number nearest to `digits * 10 ^ exponent`. Magnitudes far outside the range are settled
by their order of magnitude alone: `0.30102 < log₁₀ 2 < 0.30103`. -/
def ofDecimal (negative : Bool) (digits : Nat) (exponent : Int) : Binary64 :=
  let bits : Int := digits.log2
  if digits = 0 then zero negative
  else if 400 < bits * 30102 / 100000 + exponent then .infinite negative
  else if (bits + 1) * 30103 / 100000 + 1 + exponent < -400 then zero negative
  else if exponent < 0 then ofRatio negative digits (tenTo exponent.natAbs)
  else ofRatio negative (digits * tenTo exponent.natAbs) 1

/-- The number nearest to an integer. -/
def ofInt (n : Int) : Binary64 := ofRatio (n < 0) n.natAbs 1

/-- A finite number. -/
def isFinite : Binary64 → Bool
  | .finite .. => true
  | _ => false

/-- The integer a number is equal to, if there is one. -/
def toInt? : Binary64 → Option Int
  | .finite negative m e =>
    let (n, d) := scaled m 1 e
    if n % d = 0 then some (if negative then -(n / d : Int) else (n / d : Int)) else none
  | _ => none

/-- The order of two finite magnitudes. -/
def magnitudeLt (m : Nat) (e : Int) (m' : Nat) (e' : Int) : Bool :=
  let low := min e e'
  m * twoTo (e - low).natAbs < m' * twoTo (e' - low).natAbs

/-- The first number is less than the second. Zeros of either sign are equal, and `nan` compares
with nothing. -/
def lt : Binary64 → Binary64 → Bool
  | .nan, _ => false
  | _, .nan => false
  | .infinite true, .infinite true => false
  | .infinite true, _ => true
  | _, .infinite true => false
  | .infinite false, _ => false
  | _, .infinite false => true
  | .finite n m e, .finite n' m' e' =>
    match n, n' with
    | false, false => magnitudeLt m e m' e'
    | true, true => magnitudeLt m' e' m e
    | true, false => m ≠ 0 || m' ≠ 0
    | false, true => false

end Binary64

end EntityScaffold
