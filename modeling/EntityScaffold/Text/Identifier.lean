import EntityScaffold.Text.FileName

/-!
# Identifiers and namespaces

The forms that names in generated code must have: identifiers of ASCII letters, digits and
underscores, dotted namespaces of them, and fragments that are put before or after a class name.
As in a file name, one line feed at the very end is tolerated.

Model of `_valid_namespace`, `_valid_context_name`, `_identifier_fragment` and of the test in
`_check_identifier`.
-/

namespace EntityScaffold.Text

/-- A letter of ASCII or an underscore. -/
def isIdentifierStart (c : Char) : Bool := c.isAlpha || c == '_'

/-- A letter or digit of ASCII or an underscore. -/
def isIdentifierChar (c : Char) : Bool := c.isAlphanum || c == '_'

/-- An identifier: no digit first, and nothing but letters, digits and underscores. -/
def isIdentifier : List Char → Bool
  | [] => false
  | c :: rest => isIdentifierStart c && rest.all isIdentifierChar

/-- The pieces of a text between dots. -/
def dotPieces : List Char → List (List Char)
  | [] => [[]]
  | c :: rest =>
    if c = '.' then [] :: dotPieces rest
    else
      match dotPieces rest with
      | [] => [[c]]
      | w :: ws => (c :: w) :: ws

/-- Identifiers joined by dots, at least one. -/
def isDottedNamespace (s : List Char) : Bool := (dotPieces s).all isIdentifier

/-- Letters, digits and underscores only; the empty text is one. -/
def isIdentifierFragment (s : List Char) : Bool := s.all isIdentifierChar

/-- An identifier, apart from one line feed at the end. -/
def acceptsIdentifier (s : String) : Bool := isIdentifier (dropFinalNewline s.toList)

/-- A dotted namespace, apart from one line feed at the end. -/
def acceptsNamespace (s : String) : Bool := isDottedNamespace (dropFinalNewline s.toList)

/-- A fragment, apart from one line feed at the end. -/
def acceptsFragment (s : String) : Bool := isIdentifierFragment (dropFinalNewline s.toList)

end EntityScaffold.Text
