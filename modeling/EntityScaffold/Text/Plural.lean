import EntityScaffold.Text.Case

/-!
# English plurals

The plural of a noun by its ending alone. There is no table of irregular nouns.

Model of `pluralize`.
-/

namespace EntityScaffold.Text

/-- One of `a`, `e`, `i`, `o`, `u`. -/
def isVowel (c : Char) : Bool := ['a', 'e', 'i', 'o', 'u'].contains c

/-- What forms the plural of a noun. -/
inductive PluralRule where
  /-- A final `y` after a consonant gives way to `ies`. -/
  | changeY
  /-- A sibilant ending takes `es`. -/
  | addEs
  /-- Anything else takes `s`. -/
  | addS
  deriving DecidableEq

/-- The rule for a noun of `length` characters whose lower-case form, read backwards, is given. -/
def PluralRule.ofEnding (length : Nat) : List Char → PluralRule
  | 'y' :: c :: _ => if 1 < length && !isVowel c then .changeY else .addS
  | 's' :: _ => .addEs
  | 'x' :: _ => .addEs
  | 'z' :: _ => .addEs
  | 'h' :: 'c' :: _ => .addEs
  | 'h' :: 's' :: _ => .addEs
  | _ => .addS

/-- The plural of a noun; the empty text has none and stays empty. -/
def pluralize (name : String) : String :=
  let s := name.toList
  if s.isEmpty then ""
  else
    match PluralRule.ofEnding s.length (lower s).reverse with
    | .changeY => String.ofList (s.dropLast ++ ['i', 'e', 's'])
    | .addEs => String.ofList (s ++ ['e', 's'])
    | .addS => String.ofList (s ++ ['s'])

end EntityScaffold.Text
