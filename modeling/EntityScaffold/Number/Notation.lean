import EntityScaffold.Number.Shortest

/-!
# Written numbers

How numbers are written in messages and in generated code.

* `Binary64.toText`: the shortest digits; positional from `0.0001` to below `10 ^ 16`, with a
  fraction always, and otherwise with an exponent of two digits at least.
* `Binary64.toBoundText`: as a bound in generated code, where an integral number has no fraction
  and no exponent.
* `groupedText`: a count with its thousands parted by commas.

Model of `format_csharp_number` and of how numbers are put into messages.
-/

namespace EntityScaffold

/-- The decimal digits of a natural number. -/
def digitsOf (n : Nat) : List Char := Nat.toDigits 10 n

/-- An integer in decimal digits. -/
def intText (n : Int) : String :=
  String.ofList (if n < 0 then '-' :: digitsOf n.natAbs else digitsOf n.natAbs)

/-- The digits in groups of three, counted from the right, the first group last. -/
def groupedDigits : List Char → List Char
  | a :: b :: c :: d :: rest => a :: b :: c :: ',' :: groupedDigits (d :: rest)
  | short => short

/-- A count with its thousands parted by commas. -/
def groupedText (n : Nat) : String :=
  String.ofList (groupedDigits (digitsOf n).reverse).reverse

namespace Binary64

/-- Where positional notation ends and how an exponent is written. -/
structure Layout where
  /-- The least exponent of a first digit that is written positionally. -/
  leastPositional : Int
  /-- The least exponent of a first digit that is written with an exponent again. -/
  leastExponential : Int
  /-- The least number of digits of an exponent. -/
  exponentWidth : Nat

/-- Numbers in messages: positional from `0.0001` to below `10 ^ 16`. -/
def messageLayout : Layout := ⟨-4, 16, 2⟩

/-- The digits of an exponent, padded with zeros. -/
def exponentDigits (width n : Nat) : List Char :=
  let digits := digitsOf n
  List.replicate (width - digits.length) '0' ++ digits

/-- A positive decimal number under a layout. -/
def Decimal.chars (layout : Layout) (d : Decimal) : List Char :=
  let digits := digitsOf d.digits
  let leading : Int := d.exponent + (digits.length - 1 : Nat)
  if leading < layout.leastPositional ∨ layout.leastExponential ≤ leading then
    let mantissa :=
      match digits with
      | [] => []
      | [c] => [c]
      | c :: rest => c :: '.' :: rest
    let sign := if leading < 0 then '-' else '+'
    mantissa ++ 'e' :: sign :: exponentDigits layout.exponentWidth leading.natAbs
  else if 0 ≤ d.exponent then
    digits ++ List.replicate d.exponent.natAbs '0' ++ ['.', '0']
  else if leading < 0 then
    ['0', '.'] ++ List.replicate (leading.natAbs - 1) '0' ++ digits
  else
    let whole := digits.length - d.exponent.natAbs
    digits.take whole ++ '.' :: digits.drop whole

/-- The sign of a number as it is written. -/
def signChars (negative : Bool) : List Char := if negative then ['-'] else []

/-- A number as messages show it. -/
def toText : Binary64 → String
  | .nan => "nan"
  | .infinite negative => String.ofList (signChars negative ++ "inf".toList)
  | .finite negative m e =>
    String.ofList (signChars negative ++
      if m = 0 then "0.0".toList else (shortest m e).chars messageLayout)

/-- A number as a bound in generated code: an integral number without fraction and exponent. -/
def toBoundText (x : Binary64) : String :=
  match x.toInt? with
  | some n => intText n
  | none => x.toText

end Binary64

end EntityScaffold
