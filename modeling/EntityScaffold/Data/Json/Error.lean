import EntityScaffold.Number.Literal
import EntityScaffold.Number.Notation

/-!
# Faults of JSON texts

A text that is not JSON is refused with the first fault and the place where it was found.
-/

namespace EntityScaffold.Json

/-- What a reader expected or could not accept. -/
inductive Problem where
  | expectingValue
  | expectingName
  | expectingColon
  | expectingComma
  | extraData
  | unterminatedString
  | controlCharacter
  | invalidEscape
  | invalidUnicodeEscape
  | byteOrderMark
  /-- An integer of more digits than are read. -/
  | oversizedInteger (digits : Nat)
  /-- Values lie deeper inside each other than is read. -/
  | tooDeep
  deriving DecidableEq

/-- The wording of a problem. -/
def Problem.message : Problem → String
  | .expectingValue => "Expecting value"
  | .expectingName => "Expecting property name enclosed in double quotes"
  | .expectingColon => "Expecting ':' delimiter"
  | .expectingComma => "Expecting ',' delimiter"
  | .extraData => "Extra data"
  | .unterminatedString => "Unterminated string starting at"
  | .controlCharacter => "Invalid control character at"
  | .invalidEscape => "Invalid \\escape"
  | .invalidUnicodeEscape => "Invalid \\uXXXX escape"
  | .byteOrderMark => "Unexpected UTF-8 BOM (decode using utf-8-sig)"
  | .oversizedInteger digits => tooManyDigits digits
  | .tooDeep => "Nested too deeply"

/-- A problem and the number of characters before it. -/
structure Error where
  problem : Problem
  position : Nat
  deriving DecidableEq

/-- Line and column, both from one, of a position in a text. -/
def lineColumn (source : List Char) (position : Nat) : Nat × Nat :=
  let before := source.take position
  (before.count '\n' + 1, (before.reverse.takeWhile (· ≠ '\n')).length + 1)

/-- The wording of a fault found in `source`. -/
def Error.message (source : List Char) (e : Error) : String :=
  let (line, column) := lineColumn source e.position
  s!"{e.problem.message}: line {line} column {column} (char {e.position})"

end EntityScaffold.Json
