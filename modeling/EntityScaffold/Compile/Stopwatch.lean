import EntityScaffold.Number.Notation

/-!
# Measured times

Steps are timed with a stopwatch that counts microseconds. Reports show seconds with a fixed
number of places.

Model of `Timer` with its readings given.
-/

namespace EntityScaffold

/-- A measured step. -/
structure Stopwatch where
  label : String := "operation"
  /-- Readings of the clock in microseconds. -/
  started : Nat := 0
  ended : Nat := 0

/-- Microseconds as seconds with `places` decimal places, a half rounded to even. -/
def secondsText (places micros : Nat) : String :=
  let units := Binary64.roundDiv (micros * tenTo places) 1000000
  let fraction := digitsOf (units % tenTo places)
  String.ofList (digitsOf (units / tenTo places) ++
    '.' :: List.replicate (places - fraction.length) '0' ++ fraction)

/-- Microseconds as a number of seconds. -/
def secondsOf (micros : Nat) : Binary64 := .ofRatio false micros 1000000

namespace Stopwatch

/-- The measured time. -/
def elapsed (w : Stopwatch) : Nat := w.ended - w.started

/-- A stopwatch as messages show it. -/
def display (w : Stopwatch) : String := s!"<Timer {w.label}: " ++ secondsText 4 w.elapsed ++ "s>"

end Stopwatch

end EntityScaffold
