/-!
# Line ends of text files

Files written on other systems end lines with a carriage return, alone or before a line feed. A
text read from a file has line feeds only.
-/

namespace EntityScaffold.Text

/-- A text with a line feed for every line end. -/
def withLineFeeds : List Char → List Char
  | '\r' :: '\n' :: rest => '\n' :: withLineFeeds rest
  | '\r' :: rest => '\n' :: withLineFeeds rest
  | c :: rest => c :: withLineFeeds rest
  | [] => []

/-- The text of a file, if its bytes are one. -/
def ofBytes? (bytes : ByteArray) : Option (List Char) :=
  (String.fromUTF8? bytes).map fun s => withLineFeeds s.toList

end EntityScaffold.Text
