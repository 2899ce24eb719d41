/-!
# String literals of C#

A text is written into generated code in one of two forms: a regular literal, where a backslash
starts an escape, or a verbatim literal, where only the quote is doubled.

Model of `csharp_string_literal` and `csharp_verbatim_literal`.
-/

namespace EntityScaffold.Text

/-- The inside of a regular literal: backslashes and quotes are escaped by a backslash. -/
def escapeRegular (s : List Char) : List Char :=
  s.flatMap fun c => if c = '\\' ∨ c = '"' then ['\\', c] else [c]

/-- The inside of a verbatim literal: quotes are doubled. -/
def doubleQuotes (s : List Char) : List Char :=
  s.flatMap fun c => if c = '"' then ['"', '"'] else [c]

/-- A text as a regular string literal. -/
def regularLiteral (s : String) : String :=
  String.ofList ('"' :: escapeRegular s.toList ++ ['"'])

/-- A text as a verbatim string literal. -/
def verbatimLiteral (s : String) : String :=
  String.ofList ('@' :: '"' :: doubleQuotes s.toList ++ ['"'])

end EntityScaffold.Text
