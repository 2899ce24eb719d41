/-!
# Lines of a text

A text is assembled from lines that each end in a line feed, and measured by counting them.

Model of `count_lines`.
-/

namespace EntityScaffold.Text

/-- The text of a list of lines: each but the last is followed by a line feed. -/
def joinLines (ls : List String) : String := "\n".intercalate ls

/-- The text of a complete file: every line is followed by a line feed. -/
def fileText (ls : List String) : String := joinLines ls ++ "\n"

/-- The number of lines of a text; a last line without line feed counts. -/
def countLines (s : String) : Nat :=
  let cs := s.toList
  match cs.getLast? with
  | none => 0
  | some c => cs.count '\n' + (if c = '\n' then 0 else 1)

end EntityScaffold.Text
