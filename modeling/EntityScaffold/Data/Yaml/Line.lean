import EntityScaffold.Number.Literal

/-!
# Lines of YAML texts

The characters that end lines and separate words, the places where a document ends, and how line
ends inside a scalar fold: one line end becomes a space, and of several the first is dropped.
-/

namespace EntityScaffold.Yaml

/-- Why a text gives no value. -/
inductive Error where
  /-- The text breaks a rule of the format. -/
  | malformed
  /-- A scalar has the form of a value that does not exist, such as a date that the calendar does
  not have. -/
  | impossible (reason : String)
  /-- A number in the text is too large to be worked with. -/
  | outOfRange
  /-- Collections lie deeper inside each other than is read. -/
  | tooDeep
  deriving DecidableEq

/-- The text breaks a rule of the format. -/
def malformed : Except Error α := .error .malformed

/-- A character that ends a line. -/
def isBreak (c : Char) : Bool := c == '\n' || c == '\x85' || c == '\u2028' || c == '\u2029'

/-- A character that separates words within a line. -/
def isGap (c : Char) : Bool := c == ' ' || c == '\t'

/-- The text ends, or a word does. -/
def atWordEnd (s : List Char) : Bool :=
  match s with
  | [] => true
  | c :: _ => isGap c || isBreak c

/-- A space, or the end of a line or of the text. -/
def atSpaceOrLineEnd (s : List Char) : Bool :=
  match s with
  | [] => true
  | c :: _ => c == ' ' || isBreak c

/-- A line end as it counts in a scalar: only the two separators of their own keep their form. -/
def lineEnd (c : Char) : Char := if c = '\u2028' ∨ c = '\u2029' then c else '\n'

/-- Three characters that separate documents stand here as a word. -/
def atMarker (mark : Char) (s : List Char) : Bool :=
  s.take 3 == [mark, mark, mark] && atWordEnd (s.drop 3)

/-- A document starts or ends here, if this is the start of a line. -/
def atDocumentMarker (s : List Char) : Bool := atMarker '-' s || atMarker '.' s

/-- What follows a comment at the head, if there is one. -/
def skipComment (s : List Char) : List Char :=
  if s.head? = some '#' then s.dropWhile (!isBreak ·) else s

/-- The rest of a line that may only hold spaces and a comment: what follows its end. -/
def skipEmptyRest (s : List Char) : Except Error (List Char) :=
  match skipComment (s.dropWhile (· == ' ')) with
  | [] => .ok []
  | c :: rest => if isBreak c then .ok rest else malformed

/-- Line ends between two words of a scalar, given the first and the others. -/
def fold (first : Char) (others : List Char) : List Char :=
  if lineEnd first ≠ '\n' then lineEnd first :: others
  else if others.isEmpty then [' ']
  else others

/-- A character that documents may hold. -/
def isPrintable (c : Char) : Bool :=
  c == '\t' || c == '\n' || c == '\r' || (' ' ≤ c && c ≤ '~') || c == '\x85' ||
    ('\xA0' ≤ c && c.toNat ≤ 0xFFFD) || 0x10000 ≤ c.toNat

end EntityScaffold.Yaml
