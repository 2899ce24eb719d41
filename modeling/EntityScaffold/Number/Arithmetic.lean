import EntityScaffold.Number.Binary64

/-!
# Arithmetic with double-precision numbers

The sum and the product of two numbers, each the exact result rounded to the nearest number, ties
to the even mantissa. What has no result is `nan`: the sum of infinities of different signs, and
the product of an infinity and zero.
-/

namespace EntityScaffold.Binary64

/-- The sign of a number; `nan` has none. -/
def isNegative : Binary64 → Bool
  | .nan => false
  | .infinite negative => negative
  | .finite negative _ _ => negative

/-- The number with the other sign. -/
def negate : Binary64 → Binary64
  | .nan => .nan
  | .infinite negative => .infinite !negative
  | .finite negative m e => .finite (!negative) m e

/-- The rounded product. -/
def mul (x y : Binary64) : Binary64 :=
  let negative := x.isNegative != y.isNegative
  match x, y with
  | .nan, _ => .nan
  | _, .nan => .nan
  | .infinite _, .finite _ m _ => if m = 0 then .nan else .infinite negative
  | .finite _ m _, .infinite _ => if m = 0 then .nan else .infinite negative
  | .infinite _, .infinite _ => .infinite negative
  | .finite _ m e, .finite _ m' e' =>
    let (num, den) := scaled m 1 e
    let (num', den') := scaled m' 1 e'
    ofRatio negative (num * num') (den * den')

/-- The rounded sum. A sum that is zero is negative if both numbers are. -/
def add (x y : Binary64) : Binary64 :=
  match x, y with
  | .nan, _ => .nan
  | _, .nan => .nan
  | .infinite n, .infinite n' => if n = n' then .infinite n else .nan
  | .infinite n, .finite .. => .infinite n
  | .finite .., .infinite n => .infinite n
  | .finite n m e, .finite n' m' e' =>
    let (num, den) := scaled m 1 e
    let (num', den') := scaled m' 1 e'
    let signed (negative : Bool) (k : Nat) : Int := if negative then -k else k
    let total := signed n (num * den') + signed n' (num' * den)
    let negative := if total = 0 then n && n' else total < 0
    ofRatio negative total.natAbs (den * den')

end EntityScaffold.Binary64
