import EntityScaffold.Number.Binary64

/-!
# The shortest decimal form of a double-precision number

A finite number stands for every real number that rounds to it. Its shortest decimal form has
the fewest digits that lie in that interval and, of those, the digits nearest to the number
itself. `Binary64.shortest` finds it grid by grid in exact arithmetic: on the grid of one digit,
two digits and so on the two neighbours of the number are tried.
-/

namespace EntityScaffold.Binary64

/-- A positive decimal number `digits * 10 ^ exponent`. -/
structure Decimal where
  digits : Nat
  exponent : Int
  deriving DecidableEq

/-- The real numbers that round to a positive finite number, scaled by a common factor: bounds,
the number itself, the scale, and whether the bounds belong to it. -/
structure Interval where
  low : Nat
  value : Nat
  high : Nat
  scale : Nat
  closed : Bool

/-- The interval of `m * 2 ^ e`, with the number scaled by four to hold half distances. -/
def interval (m : Nat) (e : Int) : Interval :=
  let (unit, scale) := scaled 1 1 e
  let below := if m = twoTo 52 ∧ minExponent < e then 1 else 2
  { low := (4 * m - below) * unit
    value := 4 * m * unit
    high := (4 * m + 2) * unit
    scale := 4 * scale
    closed := m % 2 = 0 }

/-- `d * 10 ^ k`, scaled like the interval, against a bound: numerators over one denominator. -/
def Interval.scaledPoint (i : Interval) (d : Nat) (k : Int) : Nat × Nat :=
  if k < 0 then (d * i.scale, tenTo k.natAbs) else (d * tenTo k.natAbs * i.scale, 1)

/-- The decimal `d * 10 ^ k` rounds to the number of the interval. -/
def Interval.holds (i : Interval) (d : Nat) (k : Int) : Bool :=
  let (n, den) := i.scaledPoint d k
  if i.closed then i.low * den ≤ n && n ≤ i.high * den
  else i.low * den < n && n < i.high * den

/-- The distance of `d * 10 ^ k` from the number, over the same denominator for both
neighbours on one grid. -/
def Interval.distance (i : Interval) (d : Nat) (k : Int) : Nat :=
  let (n, den) := i.scaledPoint d k
  (n - i.value * den) + (i.value * den - n)

/-- The multiple of `10 ^ k` at or below the number. -/
def Interval.floorOn (i : Interval) (k : Int) : Nat :=
  if k < 0 then i.value * tenTo k.natAbs / i.scale else i.value / (i.scale * tenTo k.natAbs)

/-- The neighbour of the number on the grid of `10 ^ k` that rounds to it, the nearer one if
both do, and of two equally near ones the even one. -/
def Interval.onGrid? (i : Interval) (k : Int) : Option Decimal :=
  let d := i.floorOn k
  match i.holds d k, i.holds (d + 1) k with
  | false, false => none
  | true, false => some ⟨d, k⟩
  | false, true => some ⟨d + 1, k⟩
  | true, true =>
    let below := i.distance d k
    let above := i.distance (d + 1) k
    if below < above ∨ (below = above ∧ d % 2 = 0) then some ⟨d, k⟩ else some ⟨d + 1, k⟩

/-- The number of decimal digits of `n`. -/
def digitCount (n : Nat) : Nat := (Nat.toDigits 10 n).length

/-- The exponent of the first decimal digit of a positive number. -/
def Interval.leading (i : Interval) : Int :=
  if i.scale ≤ i.value then (digitCount (i.value / i.scale) : Int) - 1
  else
    -- `scale / value` has as many digits as there are places before the first digit.
    let guess : Nat := digitCount (i.scale / i.value)
    if i.scale ≤ i.value * tenTo (guess - 1) then -((guess : Int) - 1) else -(guess : Int)

/-- The first hit among the grids of `count`, `count + 1`, … digits. -/
def Interval.search (i : Interval) (leading : Int) : Nat → Nat → Decimal
  | 0, count => ⟨i.floorOn (leading - count), leading - count⟩
  | fuel + 1, count =>
    match i.onGrid? (leading - count) with
    | some d => d
    | none => i.search leading fuel (count + 1)

/-- Removes trailing zeros, at most as many as there are digits. -/
def Decimal.trimmed (d : Decimal) : Decimal := go (digitCount d.digits) d
where
  go : Nat → Decimal → Decimal
    | 0, d => d
    | fuel + 1, d =>
      if d.digits ≠ 0 ∧ d.digits % 10 = 0 then go fuel ⟨d.digits / 10, d.exponent + 1⟩ else d

/-- The shortest decimal that rounds to `m * 2 ^ e`, for a positive `m`. Seventeen digits always
suffice. -/
def shortest (m : Nat) (e : Int) : Decimal :=
  let i := interval m e
  (i.search i.leading 17 0).trimmed

end EntityScaffold.Binary64
