import EntityScaffold.Number.Binary64

/-!
# Number literals

Numbers as documents write them: digits in several bases, an exponent part, and plain decimal
literals with a point. All documents, whatever their format, share these readings.
-/

namespace EntityScaffold

/-- The value of a hexadecimal digit. -/
def hexValue? (c : Char) : Option Nat :=
  if '0' ≤ c ∧ c ≤ '9' then some (c.toNat - '0'.toNat)
  else if 'a' ≤ c ∧ c ≤ 'f' then some (c.toNat - 'a'.toNat + 10)
  else if 'A' ≤ c ∧ c ≤ 'F' then some (c.toNat - 'A'.toNat + 10)
  else none

/-- The number that digits write in a base of at most sixteen. -/
def numberInBase? (base : Nat) (s : List Char) : Option Nat :=
  s.foldl (fun acc c => do
    let d ← hexValue? c
    if d < base then return (← acc) * base + d else none) (some 0)

/-- The number that hexadecimal digits write. -/
def hexNumber? (s : List Char) : Option Nat := numberInBase? 16 s

/-- The natural number that decimal digits write. -/
def decimalNumber (s : List Char) : Nat :=
  s.foldl (fun n c => n * 10 + (c.toNat - '0'.toNat)) 0

/-- The greatest number of decimal digits that an integer may be written with. -/
def digitLimit : Nat := 4300

/-- What is said of an integer that has too many digits to be written. -/
def unwritableNumber : String :=
  s!"Exceeds the limit ({digitLimit} digits) for integer string conversion; " ++
    "use sys.set_int_max_str_digits() to increase the limit"

/-- What is said of an integer with too many digits. -/
def tooManyDigits (count : Nat) : String :=
  s!"Exceeds the limit ({digitLimit} digits) for integer string conversion: value has " ++
    s!"{count} digits; use sys.set_int_max_str_digits() to increase the limit"

/-- The exponent part at the head of a text: its characters and its value, if it is complete. -/
def exponentPart? (s : List Char) : Option (Nat × Int) :=
  match s with
  | c :: rest =>
    if c = 'e' ∨ c = 'E' then
      let signed := rest.head? = some '+' ∨ rest.head? = some '-'
      let digits := (if signed then rest.drop 1 else rest).takeWhile Char.isDigit
      if digits.isEmpty then none
      else
        let n : Int := decimalNumber digits
        some (1 + (if signed then 1 else 0) + digits.length,
          if rest.head? = some '-' then -n else n)
    else none
  | [] => none

/-- The number that a plain decimal literal writes: digits with a point among, before or after
them, and perhaps an exponent. -/
def decimalLiteral? (negative : Bool) (s : List Char) : Option Binary64 :=
  let whole := s.takeWhile Char.isDigit
  let after := s.drop whole.length
  let point := after.head? = some '.'
  let fraction := if point then (after.drop 1).takeWhile Char.isDigit else []
  let rest := after.drop (if point then fraction.length + 1 else 0)
  let digits := whole ++ fraction
  let value (e : Int) := Binary64.ofDecimal negative (decimalNumber digits) (e - fraction.length)
  if digits.isEmpty then none
  else if rest.isEmpty then some (value 0)
  else
    match exponentPart? rest with
    | some (size, e) => if size = rest.length then some (value e) else none
    | none => none

end EntityScaffold
