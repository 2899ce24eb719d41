import EntityScaffold.Text.Blank

/-!
# Paths

A path is an anchor, the place that it starts from, followed by names. Reading a path drops
empty parts and single dots; double dots stay, since where they lead is for the tree to say.
`relativeParts?` tells which texts name a place strictly below a directory.
-/

namespace EntityScaffold

/-- An anchor and names below it. -/
abbrev Path := List String

namespace Path

/-- The pieces of a text between slashes. -/
def slashPieces : List Char → List (List Char)
  | [] => [[]]
  | c :: rest =>
    if c = '/' then [] :: slashPieces rest
    else
      match slashPieces rest with
      | [] => [[c]]
      | w :: ws => (c :: w) :: ws

/-- The parts of a path text that lead somewhere: no empty ones and no single dots. -/
def parts (s : String) : List String :=
  ((slashPieces s.toList).map String.ofList).filter fun p => p ≠ "" ∧ p ≠ "."

/-- The text starts at the top. -/
def isAbsoluteText (s : String) : Bool := s.toList.head? = some '/'

/-- A path text, seen from a directory. An absolute text starts at the anchor without a name. -/
def ofText (directory : Path) (s : String) : Path :=
  if isAbsoluteText s then "" :: parts s else directory ++ parts s

/-- A path as text. -/
def display (p : Path) : String :=
  match p with
  | [""] => "/"
  | _ => "/".intercalate p

/-- The slashes that an absolute text starts with count as one, except that two are kept. -/
def anchorText (s : String) : String :=
  let slashes := (s.toList.takeWhile (· = '/')).length
  if slashes = 0 then "" else if slashes = 2 then "//" else "/"

/-- A path text in its shortest form. -/
def normalText (s : String) : String :=
  let text := anchorText s ++ "/".intercalate (parts s)
  if text.isEmpty then "." else text

/-- The path of the directory that holds a path. -/
def parent (p : Path) : Path := if p.length ≤ 1 then p else p.dropLast

/-- The last name of a path. -/
def name (p : Path) : String := if p.length ≤ 1 then "" else p.getLastD ""

/-- Follows double dots by name: each takes back the name before it. -/
def collapsed (p : Path) : Path :=
  match p with
  | [] => []
  | anchor :: names =>
    names.foldl (fun place n => if n = ".." then parent place else place ++ [n]) [anchor]

/-- The part of a name from its last dot on. A dot in front of everything starts no suffix, and
neither does one at the end. -/
def suffix (name : String) : String :=
  let s := name.toList
  let tail := s.reverse.takeWhile (· ≠ '.')
  let head := s.length - tail.length - 1
  if tail.length = s.length ∨ tail.isEmpty ∨ head = 0 then ""
  else String.ofList (s.drop head)

/-- The names that a relative path text leads through, if it leads strictly below the directory
that it starts from: it is not absolute, has a part, and none of its parts is a double dot. -/
def relativeParts? (s : String) : Option (List String) :=
  if isAbsoluteText s || (parts s).contains ".." || (parts s).isEmpty then none
  else some (parts s)

end Path

end EntityScaffold
