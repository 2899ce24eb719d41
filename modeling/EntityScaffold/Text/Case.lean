import EntityScaffold.Text.CaseTable
import EntityScaffold.Text.Ranges

/-!
# Upper and lower case

Full case mapping of text, as the Unicode Standard defines it without a locale: a character may
map to several, and a capital sigma becomes the final form at the end of a word. Characters of
ASCII take the short way through `Char.toUpper` and `Char.toLower`.
-/

namespace EntityScaffold.Text

/-- The characters that a table of runs and a table of expansions give for `c`; a character in
neither maps to itself. -/
def mapped (runs : List CaseRun) (expansions : List (Nat × List Nat)) (c : Char) : List Char :=
  match runs.findSome? (·.image? c.toNat) with
  | some n => [Char.ofNat n]
  | none =>
    match expansions.lookup c.toNat with
    | some ns => ns.map Char.ofNat
    | none => [c]

/-- The upper-case form of one character. -/
def upperChar (c : Char) : List Char :=
  if c.toNat < 128 then [c.toUpper] else mapped upperRuns upperExpansions c

/-- The lower-case form of one character out of context. -/
def lowerChar (c : Char) : List Char :=
  if c.toNat < 128 then [c.toLower] else mapped lowerRuns lowerExpansions c

/-- Upper-case form of a text. -/
def upper (s : List Char) : List Char := s.flatMap upperChar

/-- The first character that is not case-ignorable is cased. -/
def meetsCased (s : List Char) : Bool :=
  match s.dropWhile (inRanges caseIgnorableRanges) with
  | c :: _ => inRanges casedRanges c
  | [] => false

/-- The lower-case form of `c` between the characters `before` it, nearest first, and `after`
it. Only the capital sigma looks at them. -/
def lowerBetween (before : List Char) (c : Char) (after : List Char) : List Char :=
  if c = 'Σ' then [if meetsCased before && !meetsCased after then 'ς' else 'σ'] else lowerChar c

/-- Lower-case form of a text that follows the characters `before`, nearest first. -/
def lowerAfter (before : List Char) : List Char → List Char
  | [] => []
  | c :: rest => lowerBetween before c rest ++ lowerAfter (c :: before) rest

/-- Lower-case form of a text. -/
def lower (s : List Char) : List Char := lowerAfter [] s

@[simp] theorem upper_nil : upper [] = [] := rfl

@[simp] theorem lower_nil : lower [] = [] := rfl

/-- Lower-case form of a string. -/
def lowerCase (s : String) : String := String.ofList (lower s.toList)

/-- Upper-case form of a string. -/
def upperCase (s : String) : String := String.ofList (upper s.toList)

end EntityScaffold.Text
