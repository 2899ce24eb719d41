import EntityScaffold.Data.Json.Error
import EntityScaffold.Data.Value
import EntityScaffold.Number.Literal

/-!
# Reading JSON

A reader of JSON texts that keeps the order of members and tells integers from other numbers.
Beyond the standard it accepts `NaN`, `Infinity` and `-Infinity`. Of members with one name the
last value counts.

Every function takes the position of its input in the whole text, so that a fault can be placed.

An escape for half of a surrogate pair without its other half stands for no character. It is read as
the replacement character, which is a limit of this reader: documents are taken to hold none.
-/

namespace EntityScaffold.Json

/-- A place in a text: how many characters come before it, and those that follow. -/
structure Cursor where
  position : Nat
  rest : List Char

/-- The cursor after `n` more characters. -/
def Cursor.skip (c : Cursor) (n : Nat) : Cursor := ⟨c.position + n, c.rest.drop n⟩

/-- White space between tokens. -/
def isSpace (c : Char) : Bool := c == ' ' || c == '\t' || c == '\n' || c == '\r'

/-- The cursor at the next token. -/
def Cursor.skipSpace (c : Cursor) : Cursor := c.skip (c.rest.takeWhile isSpace).length

/-- A fault at the cursor. -/
def Cursor.fail (c : Cursor) (p : Problem) : Except Error α := .error ⟨p, c.position⟩

/-- The character of an escape after `\u`, and how many characters it takes. The letter `u`
stands at `position`, and `s` follows it. A high surrogate joins with an escaped low one; a
surrogate alone is read as the replacement character. -/
def unicodeEscape (position : Nat) (s : List Char) : Except Error (Char × Nat) :=
  let invalid (p : Nat) : Except Error (Char × Nat) := .error ⟨.invalidUnicodeEscape, p⟩
  if s.length ≤ 4 then invalid position
  else
    match hexNumber? (s.take 4) with
    | none => invalid position
    | some high =>
      let after := s.drop 4
      if 0xD800 ≤ high ∧ high < 0xDC00 ∧ 6 < after.length ∧ after.take 2 = ['\\', 'u'] then
        match hexNumber? ((after.drop 2).take 4) with
        | none => invalid (position + 6)
        | some low =>
          if 0xDC00 ≤ low ∧ low < 0xE000 then
            .ok (Char.ofNat (0x10000 + (high - 0xD800) * 0x400 + (low - 0xDC00)), 10)
          else .ok (Char.ofNat 0xFFFD, 4)
      else if 0xD800 ≤ high ∧ high < 0xE000 then .ok (Char.ofNat 0xFFFD, 4)
      else .ok (Char.ofNat high, 4)

/-- The character that `\c` stands for, and how many characters after `c` belong to it. The
backslash stands at `position`, and `s` follows `c`. -/
def escape (position : Nat) (c : Char) (s : List Char) : Except Error (Char × Nat) :=
  match c with
  | '"' => .ok ('"', 0)
  | '\\' => .ok ('\\', 0)
  | '/' => .ok ('/', 0)
  | 'b' => .ok ('\x08', 0)
  | 'f' => .ok ('\x0c', 0)
  | 'n' => .ok ('\n', 0)
  | 'r' => .ok ('\r', 0)
  | 't' => .ok ('\t', 0)
  | 'u' => unicodeEscape (position + 1) s
  | _ => .error ⟨.invalidEscape, position⟩

/-- Reads the inside of a string whose opening quote stands at `start`. -/
def readString (start position : Nat) (acc : List Char) (s : List Char) :
    Except Error (String × Cursor) :=
  match s with
  | [] => .error ⟨.unterminatedString, start⟩
  | c :: rest =>
    if c = '"' then .ok (String.ofList acc.reverse, ⟨position + 1, rest⟩)
    else if c = '\\' then
      match rest with
      | [] => .error ⟨.unterminatedString, start⟩
      | d :: rest =>
        match escape position d rest with
        | .error e => .error e
        | .ok (x, n) => readString start (position + 2 + n) (x :: acc) (rest.drop n)
    else if c < ' ' then .error ⟨.controlCharacter, position⟩
    else readString start (position + 1) (c :: acc) rest
termination_by s.length
decreasing_by
  all_goals simp [List.length_drop]
  all_goals omega

/-- The number at the head of a text and how many characters it takes. A fraction needs a digit
after its point and an exponent a digit after its sign; what lacks one is not part of it. -/
def readNumber? (s : List Char) : Option (Scalar × Nat) :=
  let negative := s.head? = some '-'
  let unsigned := if negative then s.drop 1 else s
  let whole :=
    if unsigned.head? = some '0' then ['0'] else unsigned.takeWhile Char.isDigit
  if whole.isEmpty then none
  else
    let after := unsigned.drop whole.length
    let fraction :=
      if after.head? = some '.' then (after.drop 1).takeWhile Char.isDigit else []
    let fractionSize := if fraction.isEmpty then 0 else fraction.length + 1
    let exponent := exponentPart? (after.drop fractionSize)
    let signSize := if negative then 1 else 0
    let size := signSize + whole.length + fractionSize
    match fraction, exponent with
    | [], none =>
      let n : Int := decimalNumber whole
      some (.int (if negative then -n else n), size)
    | _, _ =>
      let (exponentSize, e) := exponent.getD (0, 0)
      some (.float (.ofDecimal negative (decimalNumber (whole ++ fraction))
        (e - fraction.length)), size + exponentSize)

/-- The words that stand for values. -/
def constants : List (List Char × Scalar) :=
  [("null".toList, .null), ("true".toList, .bool true), ("false".toList, .bool false),
    ("NaN".toList, .float .nan), ("Infinity".toList, .float (.infinite false)),
    ("-Infinity".toList, .float (.infinite true))]

/-- The scalar at a cursor that is not a string. -/
def readPlain (c : Cursor) : Except Error (Value × Cursor) :=
  match constants.find? (fun k => k.1.isPrefixOf c.rest) with
  | some k => .ok (.scalar k.2, c.skip k.1.length)
  | none =>
    match readNumber? c.rest with
    | some (.int i, n) =>
      let digits := if c.rest.head? = some '-' then n - 1 else n
      if digitLimit < digits then c.fail (.oversizedInteger digits)
      else .ok (.int i, c.skip n)
    | some (x, n) => .ok (.scalar x, c.skip n)
    | none => c.fail .expectingValue

/-- How deep values may lie inside each other. -/
def nestingLimit : Nat := 985

mutual

/-- The value at a cursor. The first argument bounds the calls; twice the length of the text is
enough, since every second call takes a character. The second says how much deeper values may
lie. -/
def readValue : Nat → Nat → Cursor → Except Error (Value × Cursor)
  | 0, _, c => c.fail .expectingValue
  | fuel + 1, depth, c =>
    match c.rest with
    | '"' :: rest => do
      let (s, c') ← readString c.position (c.position + 1) [] rest
      return (.text s, c')
    | '{' :: _ =>
      let inside := (c.skip 1).skipSpace
      if depth = 0 then c.fail .tooDeep
      else if inside.rest.head? = some '}' then .ok (.object [], inside.skip 1)
      else readMembers fuel (depth - 1) [] inside
    | '[' :: _ =>
      let inside := (c.skip 1).skipSpace
      if depth = 0 then c.fail .tooDeep
      else if inside.rest.head? = some ']' then .ok (.list [], inside.skip 1)
      else readItems fuel (depth - 1) [] inside
    | _ => readPlain c

/-- The members of an object from a name on, after those read already, last first. -/
def readMembers : Nat → Nat → List (Scalar × Value) → Cursor → Except Error (Value × Cursor)
  | 0, _, _, c => c.fail .expectingName
  | fuel + 1, depth, acc, c =>
    match c.rest with
    | '"' :: rest => do
      let (name, c₁) ← readString c.position (c.position + 1) [] rest
      let c₂ := c₁.skipSpace
      if c₂.rest.head? = some ':' then
        let (v, c₃) ← readValue fuel depth (c₂.skip 1).skipSpace
        let acc := (.text name, v) :: acc
        let c₄ := c₃.skipSpace
        if c₄.rest.head? = some '}' then
          return (.object (collectMembers acc.reverse), c₄.skip 1)
        else if c₄.rest.head? = some ',' then readMembers fuel depth acc (c₄.skip 1).skipSpace
        else c₄.fail .expectingComma
      else c₂.fail .expectingColon
    | _ => c.fail .expectingName

/-- The items of a list from a value on, after those read already, last first. -/
def readItems : Nat → Nat → List Value → Cursor → Except Error (Value × Cursor)
  | 0, _, _, c => c.fail .expectingValue
  | fuel + 1, depth, acc, c => do
    let (v, c₁) ← readValue fuel depth c
    let acc := v :: acc
    let c₂ := c₁.skipSpace
    if c₂.rest.head? = some ']' then return (.list acc.reverse, c₂.skip 1)
    else if c₂.rest.head? = some ',' then readItems fuel depth acc (c₂.skip 1).skipSpace
    else c₂.fail .expectingComma

end

/-- Reads a whole text. -/
def read (source : List Char) : Except Error Value :=
  if source.head? = some '\uFEFF' then .error ⟨.byteOrderMark, 0⟩
  else do
    let start : Cursor := ⟨0, source⟩
    let (v, c) ← readValue (2 * source.length + 2) nestingLimit start.skipSpace
    let c := c.skipSpace
    if c.rest.isEmpty then return v else c.fail .extraData

end EntityScaffold.Json
