import EntityScaffold.Text.Case

/-!
# Names of classes and members

A schema name is a sequence of words between separators. A class or member is named by the
words, each with its first character in upper case and the rest in lower case, written together.
`words_append_separator` says that words never reach across a separator.

Model of `to_pascal_case` and `to_camel_case`.
-/

namespace EntityScaffold.Text

/-- The characters that part the words of a schema name. -/
def isSeparator (c : Char) : Bool := c == '_' || c == '-' || c == ' '

/-- The pieces between the separators, empty ones included. -/
def segments : List Char → List (List Char)
  | [] => [[]]
  | c :: rest =>
    if isSeparator c then [] :: segments rest
    else
      match segments rest with
      | [] => [[c]]
      | w :: ws => (c :: w) :: ws

/-- The words of a schema name. -/
def words (s : List Char) : List (List Char) := (segments s).filter fun w => !w.isEmpty

/-- A word with its first character in upper case and the rest in lower case. -/
def titled : List Char → List Char
  | [] => []
  | c :: rest => upperChar c ++ lower rest

/-- The words of a name written together, each titled. -/
def pascal (s : List Char) : List Char := (words s).flatMap titled

/-- The class or member name for a schema name: `order_item` gives `OrderItem`. -/
def pascalCase (name : String) : String := String.ofList (pascal name.toList)

/-- The variable name for a schema name: as `pascalCase`, with a small first character. -/
def camelCase (name : String) : String :=
  match pascal name.toList with
  | [] => ""
  | c :: rest => String.ofList (lower [c] ++ rest)

@[simp] theorem segments_nil : segments [] = [[]] := rfl

theorem segments_ne_nil (s : List Char) : segments s ≠ [] := by
  cases s with
  | nil => simp
  | cons c rest =>
    unfold segments
    split
    · simp
    · split <;> simp

@[simp] theorem pascal_nil : pascal [] = [] := rfl

/-- A separator ends one piece and starts the next. -/
theorem segments_append_separator {c : Char} (hc : isSeparator c = true) (s t : List Char) :
    segments (s ++ c :: t) = segments s ++ segments t := by
  induction s with
  | nil => simp [segments, hc]
  | cons d s ih =>
    by_cases hd : isSeparator d = true
    · simp [segments, hd, ih]
    · obtain ⟨w, ws, hw⟩ := List.exists_cons_of_ne_nil (segments_ne_nil s)
      simp [segments, hd, ih, hw]

/-- The words before a separator come before the words after it. -/
theorem words_append_separator {c : Char} (hc : isSeparator c = true) (s t : List Char) :
    words (s ++ c :: t) = words s ++ words t := by
  simp [words, segments_append_separator hc]

end EntityScaffold.Text
