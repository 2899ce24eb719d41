import EntityScaffold.Intake.Fault
import EntityScaffold.Number.Literal
import EntityScaffold.Text.Blank

/-!
# Numbers written as texts

A form sends its numbers as texts, so a text may stand where a number is expected. One that has
the form of a literal is read as it is. Any other is tidied first: it loses the blanks at its ends,
a plus sign, zeros before its digits, a fraction of zeros, and the underscores that group its
digits; what is left must be a literal.

* `intOfText`: the integer that a text writes, or why there is none.
* `floatOfText?`: the double-precision number that a text writes.
-/

namespace EntityScaffold

/-- The text without its underscores, if none is first or last or follows another. -/
def ungrouped? (s : List Char) : Option (List Char) :=
  let rec doubled : List Char → Bool
    | '_' :: '_' :: _ => true
    | _ :: rest => doubled rest
    | [] => false
  if s.head? = some '_' ∨ s.getLast? = some '_' ∨ doubled s then none
  else some (s.filter (· ≠ '_'))

/-! ## Integers -/

/-- A digit that an integer of several digits may start with. -/
def isLeadingDigit (c : Char) : Bool := c.isDigit && c ≠ '0'

/-- The characters of the integer at the head of a text: a minus sign, if there is one, and digits
that start with no zero. -/
def integerLength (s : List Char) : Nat :=
  let sign := if s.head? = some '-' then 1 else 0
  let digits := (s.drop sign).takeWhile Char.isDigit
  if digits.head?.any isLeadingDigit then sign + digits.length else 0

/-- The integer that a literal writes: a zero, or digits that start with none, after a minus sign
or after nothing. -/
def intLiteral? (s : List Char) : Option Int :=
  let negative : Bool := s.head? = some '-'
  let digits := if negative then s.drop 1 else s
  if digits = ['0'] then some 0
  else if digits.head?.any isLeadingDigit && digits.all Char.isDigit then
    let n : Int := decimalNumber digits
    some (if negative then -n else n)
  else none

/-- What follows the zeros at the head of a text, among which underscores may stand: the text from
its first other digit or from a sign on, or from the last zero on if only a fraction follows. The
character before the text is `last`. -/
def afterZeros? (last : Char) (s : List Char) : Option (List Char) :=
  match s with
  | [] => some [last]
  | c :: rest =>
    if c = '0' ∨ c = '_' then afterZeros? c rest
    else if c = '.' then some (last :: s)
    else if isLeadingDigit c ∨ c = '-' then some s
    else none

/-- The text without the zeros before its digits. -/
def dropLeadingZeros? (s : List Char) : Option (List Char) :=
  match s with
  | '0' :: rest => afterZeros? '0' rest
  | c :: _ => if isLeadingDigit c ∨ c = '-' then some s else none
  | [] => none

/-- The text without a fraction of zeros, which it may have only after a point. -/
def dropZeroFraction (s : List Char) : List Char :=
  let zeros := s.reverse.takeWhile (· == '0')
  match s.reverse.drop zeros.length with
  | '.' :: rest => if zeros.isEmpty then s else rest.reverse
  | _ => s

/-- The digits of an integer that is written with more than a literal needs. -/
def tidiedDigits? (s : List Char) : Option (List Char) :=
  (dropLeadingZeros? s).bind fun s => ungrouped? (dropZeroFraction s)

/-- An integer that is written with more than a literal needs, as a literal. -/
def tidied? (s : List Char) : Option (List Char) :=
  match Text.trimBy Text.isWhiteSpace s with
  | '+' :: rest => if rest.head? = some '-' then none else tidiedDigits? rest
  | '-' :: rest => (tidiedDigits? rest).map ('-' :: ·)
  | s => tidiedDigits? s

/-- The integer that a text writes. A text that starts with too many digits is refused for its
size, unless it has to be tidied. -/
def intOfText (s : String) : Except Problem Int :=
  let cs := s.toList
  if digitLimit < integerLength cs then .error .oversizedInt
  else
    match intLiteral? cs, (tidied? cs).filter (integerLength · ≤ digitLimit) with
    | some n, _ => .ok n
    | none, some tidied =>
      match intLiteral? tidied with
      | some n => .ok n
      | none => .error .unreadableInt
    | none, none => .error .unreadableInt

/-! ## Double-precision numbers -/

/-- The number that a literal with a sign writes, in figures or as a word. -/
def floatLiteral? (s : List Char) : Option Binary64 :=
  let negative : Bool := s.head? = some '-'
  let body := if negative ∨ s.head? = some '+' then s.drop 1 else s
  let word := String.ofList (body.map Char.toLower)
  if word = "inf" ∨ word = "infinity" then some (.infinite negative)
  else if word = "nan" then some .nan
  else decimalLiteral? negative body

/-- The number that a text writes. A text may have blanks at its ends or grouped digits, but not
both. -/
def floatOfText? (s : String) : Option Binary64 :=
  (floatLiteral? (Text.trimBy Text.isWhiteSpace s.toList)).or
    ((ungrouped? s.toList).bind floatLiteral?)

end EntityScaffold
