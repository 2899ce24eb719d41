/-!
# Names of files that may be fetched

A package is fetched by its bare name. A name is safe when it cannot leave its directory: it
starts with a letter or digit, goes on with letters, digits, dots, underscores and hyphens, and
holds no two dots in a row. One line feed at the very end is tolerated.

Model of `is_safe_filename`.
-/

namespace EntityScaffold.Text

/-- A letter or digit of ASCII. -/
def isAsciiAlnum (c : Char) : Bool := c.isAlphanum

/-- The text without one line feed at its end. -/
def dropFinalNewline (s : List Char) : List Char :=
  if s.getLast? = some '\n' then s.dropLast else s

/-- Two dots in a row occur in the text. -/
def hasDoubleDot : List Char → Bool
  | '.' :: '.' :: _ => true
  | _ :: rest => hasDoubleDot rest
  | [] => false

/-- The form of a safe name: a letter or digit, then letters, digits, dots, underscores and
hyphens. -/
def hasFileNameForm : List Char → Bool
  | [] => false
  | c :: rest => isAsciiAlnum c &&
      rest.all fun d => isAsciiAlnum d || d == '.' || d == '_' || d == '-'

/-- A bare file name of at most 255 characters that cannot escape its directory. -/
def isSafeFileName (name : String) : Bool :=
  let s := name.toList
  !s.isEmpty && s.length ≤ 255 && !hasDoubleDot s && !s.contains '/' && !s.contains '\\' &&
    hasFileNameForm (dropFinalNewline s)

end EntityScaffold.Text
