import EntityScaffold.Data.Yaml.Calendar
import EntityScaffold.Number.Arithmetic

/-!
# The meaning of scalars

A plain scalar without a tag is what its spelling says: a truth value, a number, a stamp, nothing,
or the mark that merges mappings; every other one is a text. `Kind.ofText` finds the kind of a
spelling and `Kind.scalar` the value that a spelling has as a kind.

The tags that can be written before a scalar are those of these kinds. Those for binaries, and those
of collections for sets, pairs and ordered maps, are not read but refused like unknown ones, which
is a limit of this reader: documents are taken to hold none.
-/

namespace EntityScaffold.Yaml

/-- What a scalar can be. -/
inductive Kind where
  | null
  | bool
  | int
  | float
  | stamp
  /-- The key under which a mapping takes in others. -/
  | merge
  /-- The key of a default. -/
  | default
  | text
  deriving DecidableEq

/-- A word in lower case, with a capital, or in capitals. -/
def threeCases (words : List String) : List String :=
  words.flatMap fun w => [w, w.capitalize, w.toUpper]

/-- Words for truth. -/
def trueWords : List String := threeCases ["yes", "true", "on"]

/-- Words for falsehood. -/
def falseWords : List String := threeCases ["no", "false", "off"]

/-- Words for nothing. -/
def nullWords : List String := "" :: "~" :: threeCases ["null"]

/-- A number's sign and what follows it. -/
def signed (s : List Char) : Bool × List Char :=
  match s with
  | '-' :: rest => (true, rest)
  | '+' :: rest => (false, rest)
  | _ => (false, s)

/-- Digits grouped by underscores. -/
def isGrouped (isDigit : Char → Bool) (s : List Char) : Bool :=
  s.all fun c => isDigit c || c == '_'

/-- The pieces between colons. -/
def betweenColons (s : List Char) : List (List Char) :=
  ((String.ofList s).splitOn ":").map String.toList

/-- A digit pair of a number in base sixty. -/
def isSixtieth (s : List Char) : Bool :=
  match s with
  | [a] => a.isDigit
  | [a, b] => '0' ≤ a && a ≤ '5' && b.isDigit
  | _ => false

/-- A plain number, grouped, and pairs of digits for the places of base sixty. -/
def isSexagesimal (leadingZero : Bool) (s : List Char) : Bool :=
  match betweenColons s with
  | whole :: first :: more =>
    (whole.head?.any fun c => c.isDigit && (leadingZero || c ≠ '0')) &&
      isGrouped Char.isDigit whole && (first :: more).all isSixtieth
  | _ => false

/-- A spelling of an integer without its sign. -/
def isIntText (s : List Char) : Bool :=
  match s with
  | '0' :: 'b' :: rest =>
    !rest.isEmpty && isGrouped (fun c => c == '0' || c == '1') rest
  | '0' :: 'x' :: rest => !rest.isEmpty && isGrouped (hexValue? · |>.isSome) rest
  | ['0'] => true
  | '0' :: rest => isGrouped (fun c => '0' ≤ c && c ≤ '7') rest
  | c :: rest => (c.isDigit && isGrouped Char.isDigit rest) || isSexagesimal false s
  | [] => false

/-- The fraction of a spelling, after its point: digits and perhaps an exponent with a sign. -/
def isFractionText (s : List Char) : Bool :=
  let rest := s.dropWhile fun c => c.isDigit || c == '_'
  match rest with
  | [] => true
  | e :: sign :: ds =>
    (e == 'e' || e == 'E') && (sign == '+' || sign == '-') && !ds.isEmpty && ds.all Char.isDigit
  | _ => false

/-- A spelling of a number with a point. -/
def isFloatText (s : List Char) : Bool :=
  let body := (signed s).2
  let whole := body.takeWhile (· ≠ '.')
  match body.drop whole.length with
  | [] => false
  | _ :: fraction =>
    let isInfinity := ["inf", "Inf", "INF"].contains (String.ofList fraction)
    let isNaN := ["nan", "NaN", "NAN"].contains (String.ofList fraction)
    if whole.isEmpty then
      isInfinity || (s.length = body.length &&
        (isNaN || (fraction.head?.any Char.isDigit && isFractionText fraction)))
    else if whole.contains ':' then
      isSexagesimal true whole && isGrouped Char.isDigit fraction
    else whole.head?.any Char.isDigit && isGrouped Char.isDigit whole && isFractionText fraction

namespace Kind

/-- The kind of a plain scalar. -/
def ofText (s : String) : Kind :=
  let cs := s.toList
  if trueWords.contains s || falseWords.contains s then .bool
  else if isFloatText cs then .float
  else if isIntText (signed cs).2 then .int
  else if s = "<<" then .merge
  else if nullWords.contains s then .null
  else if (stamp? cs).isSome then .stamp
  else if s = "=" then .default
  else .text

/-- The kind that a tag names, if it is one of those that are read. -/
def ofTag? : String → Option Kind
  | "tag:yaml.org,2002:null" => some .null
  | "tag:yaml.org,2002:bool" => some .bool
  | "tag:yaml.org,2002:int" => some .int
  | "tag:yaml.org,2002:float" => some .float
  | "tag:yaml.org,2002:timestamp" => some .stamp
  | "tag:yaml.org,2002:merge" => some .merge
  | "tag:yaml.org,2002:value" => some .default
  | "tag:yaml.org,2002:str" => some .text
  | _ => none

end Kind

/-- Numbers of base sixty, the last first, as one number. -/
def fromSixtieths : List Nat → Nat
  | [] => 0
  | n :: more => n + 60 * fromSixtieths more

/-- The number that digits write in a base. Underscores alone are no number. -/
def inBase (base : Nat) (s : List Char) : Except Error Nat :=
  match numberInBase? base s, s with
  | some _, [] => .error (.impossible s!"invalid literal for int() with base {base}: ''")
  | some n, _ => .ok n
  | none, _ => malformed

/-- The number that decimal digits write, if they are not too many. -/
def decimal (s : List Char) : Except Error Nat :=
  if s.isEmpty || !s.all Char.isDigit then malformed
  else if digitLimit < s.length then .error (.impossible (tooManyDigits s.length))
  else .ok (decimalNumber s)

/-- The integer of a spelling. -/
def intOfText (s : String) : Except Error Int := do
  let (negative, body) := signed (s.toList.filter (· ≠ '_'))
  let n ←
    match body with
    | ['0'] => pure 0
    | '0' :: 'b' :: rest => inBase 2 rest
    | '0' :: 'x' :: rest => inBase 16 rest
    | '0' :: rest => inBase 8 rest
    | _ => do
      let pieces ← (betweenColons body).mapM decimal
      pure (fromSixtieths pieces.reverse)
  return if negative then -(n : Int) else n

/-- The total of numbers times the places of base sixty, the first times `place`. Every product and
every sum is rounded; a place that no double-precision number comes near has no product. -/
def sixtiethsTotal (place : Nat) (total : Binary64) : List Binary64 → Except Error Binary64
  | [] => .ok total
  | x :: more =>
    let weight := Binary64.ofRatio false place 1
    if weight.isFinite then sixtiethsTotal (60 * place) (total.add (x.mul weight)) more
    else .error .outOfRange

/-- The number of a spelling with a point, or `none` for one that has not the form of a number. -/
def floatOfText? (s : String) : Except Error (Option Binary64) :=
  let (negative, body) := signed ((s.toList.filter (· ≠ '_')).map Char.toLower)
  if body = ".inf".toList then .ok (some (.infinite negative))
  else if body = ".nan".toList then .ok (some .nan)
  else if body.contains ':' then
    match (betweenColons body).mapM (decimalLiteral? false) with
    | some parts => do
      let x ← sixtiethsTotal 1 (.zero false) parts.reverse
      return some (if negative then x.negate else x)
    | none => .ok none
  else .ok (decimalLiteral? negative body)

/-- The value of a spelling as a scalar of a kind. The marks of mappings have none. -/
def Kind.scalar (kind : Kind) (s : String) : Except Error Scalar :=
  match kind with
  | .null => .ok .null
  | .bool =>
    let word := s.toLower
    if ["yes", "true", "on"].contains word then .ok (.bool true)
    else if ["no", "false", "off"].contains word then .ok (.bool false)
    else malformed
  | .int => (intOfText s).map .int
  | .float => do
    match ← floatOfText? s with
    | some x => return .float x
    | none => malformed
  | .stamp =>
    match stamp? s.toList with
    | some t => stampScalar t
    | none => malformed
  | .merge => malformed
  | .default => malformed
  | .text => .ok (.text s)

end EntityScaffold.Yaml
