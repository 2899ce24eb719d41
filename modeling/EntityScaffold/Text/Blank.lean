import EntityScaffold.Text.Ranges

/-!
# White space

Two sets of white space meet in a request. Text fields are blank by the wider one, which also
holds the four information separators; numbers are trimmed by the property `White_Space`.
-/

namespace EntityScaffold.Text

/-- The characters with the property `White_Space`. -/
def whiteSpaceRanges : List (Nat × Nat) :=
  [(0x9, 0xD), (0x20, 0x20), (0x85, 0x85), (0xA0, 0xA0), (0x1680, 0x1680), (0x2000, 0x200A),
    (0x2028, 0x2029), (0x202F, 0x202F), (0x205F, 0x205F), (0x3000, 0x3000)]

/-- A character with the property `White_Space`. -/
def isWhiteSpace (c : Char) : Bool := inRanges whiteSpaceRanges c

/-- White space, or one of the information separators U+001C to U+001F. -/
def isBlankChar (c : Char) : Bool := isWhiteSpace c || inRanges [(0x1C, 0x1F)] c

/-- Drops the characters of a class from both ends. -/
def trimBy (p : Char → Bool) (s : List Char) : List Char :=
  ((s.dropWhile p).reverse.dropWhile p).reverse

/-- The text without the blanks at its ends. -/
def strip (s : String) : String := String.ofList (trimBy isBlankChar s.toList)

/-- A text of blanks only, or of nothing. -/
def isBlank (s : String) : Bool := s.toList.all isBlankChar

end EntityScaffold.Text
