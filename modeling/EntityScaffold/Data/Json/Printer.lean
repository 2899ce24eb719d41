import EntityScaffold.Data.Value

/-!
# Writing JSON

Document values as JSON texts, on one line or indented. Characters outside ASCII are written as
they are; quotes, backslashes and control characters are escaped.
-/

namespace EntityScaffold.Json

/-- One character inside a string. -/
def escapeChar (c : Char) : List Char :=
  if c = '"' ∨ c = '\\' then ['\\', c]
  else if c = '\n' then ['\\', 'n']
  else if c = '\r' then ['\\', 'r']
  else if c = '\t' then ['\\', 't']
  else if c = '\x08' then ['\\', 'b']
  else if c = '\x0c' then ['\\', 'f']
  else if c < ' ' then '\\' :: 'u' :: Text.hexDigits 4 c.toNat
  else [c]

/-- A text as a JSON string. -/
def stringLiteral (s : String) : String :=
  String.ofList ('"' :: s.toList.flatMap escapeChar ++ ['"'])

/-- A double-precision number as JSON: the shortest digits, and words for what JSON lacks. -/
def floatLiteral : Binary64 → String
  | .nan => "NaN"
  | .infinite false => "Infinity"
  | .infinite true => "-Infinity"
  | x => x.toText

/-- A scalar as JSON. -/
def scalarLiteral : Scalar → String
  | .null => "null"
  | .bool b => if b then "true" else "false"
  | .int n => intText n
  | .float x => floatLiteral x
  | .text s => stringLiteral s
  | .stamp s => stringLiteral s.display

/-- How the parts of a list or an object are set apart. -/
structure Spacing where
  /-- What stands before the first part, between parts and after the last, by depth. -/
  opening : Nat → String
  between : Nat → String
  closing : Nat → String

/-- Everything on one line. -/
def Spacing.compact : Spacing := ⟨fun _ => "", fun _ => ", ", fun _ => ""⟩

/-- Every part on a line of its own, `width` blanks further in than what holds it. -/
def Spacing.indented (width : Nat) : Spacing :=
  let line (depth : Nat) : String := "\n" ++ String.ofList (List.replicate (width * depth) ' ')
  ⟨fun depth => line (depth + 1), fun depth => "," ++ line (depth + 1), line⟩

mutual

/-- A value at a depth, written before `tail`. -/
def printValue (sp : Spacing) (depth : Nat) : Value → List String → List String
  | .scalar s, tail => scalarLiteral s :: tail
  | .list [], tail => "[]" :: tail
  | .list (v :: vs), tail =>
    "[" :: sp.opening depth ::
      printValue sp (depth + 1) v (printItems sp depth vs (sp.closing depth :: "]" :: tail))
  | .object [], tail => "\x7b\x7d" :: tail
  | .object ((k, v) :: ms), tail =>
    "\x7b" :: sp.opening depth :: stringLiteral k.keyText :: ": " ::
      printValue sp (depth + 1) v (printMembers sp depth ms (sp.closing depth :: "\x7d" :: tail))

/-- The items of a list after its first. -/
def printItems (sp : Spacing) (depth : Nat) : List Value → List String → List String
  | [], tail => tail
  | v :: vs, tail =>
    sp.between depth :: printValue sp (depth + 1) v (printItems sp depth vs tail)

/-- The members of an object after its first. -/
def printMembers (sp : Spacing) (depth : Nat) : List (Scalar × Value) → List String → List String
  | [], tail => tail
  | (k, v) :: ms, tail =>
    sp.between depth :: stringLiteral k.keyText :: ": " ::
      printValue sp (depth + 1) v (printMembers sp depth ms tail)

end

/-- A value as JSON. -/
def print (sp : Spacing) (v : Value) : String := String.join (printValue sp 0 v [])

end EntityScaffold.Json
