import EntityScaffold.FileTree.Path
import EntityScaffold.Number.Literal
import EntityScaffold.Text.Utf8

/-!
# Addresses

The path of a web address, as a service sees it: without the name of a place before it and what
follows a question mark, without dots that go up or stay, and with its percent escapes read. It
starts with one slash, and a slash that was escaped separates like any other.
-/

namespace EntityScaffold.Web

/-- The bytes of a text with its percent escapes read. A percent sign without two digits after it
stands for itself. -/
def unescaped : List Char → List UInt8
  | '%' :: a :: b :: rest =>
    match hexNumber? [a, b] with
    | some n => n.toUInt8 :: unescaped rest
    | none => 37 :: unescaped (a :: b :: rest)
  | c :: rest => (String.singleton c).toUTF8.toList ++ unescaped rest
  | [] => []

/-- Segments without dots: a single one stays and two go up. -/
def withoutDots (segments : List (List Char)) : List (List Char) :=
  segments.foldl (fun out s =>
    if s = ['.'] then out
    else if s = ['.', '.'] then if out = [] ∨ out = [[]] then out else out.dropLast
    else out ++ [s]) []

/-- What follows the name of a place at the head of an address. Such a name comes after two
slashes and goes on to the next one. -/
def withoutHost (address : List Char) : List Char :=
  match address with
  | '/' :: '/' :: rest => rest.dropWhile fun c => c ≠ '/' && c ≠ '?' && c ≠ '#'
  | _ => address

/-- The path that an address leads to. -/
def pathOf (address : String) : List Char :=
  let path := ((withoutHost address.toList).dropWhile (· = '/')).takeWhile fun c =>
    c ≠ '?' && c ≠ '#'
  let path := '/' :: path
  let segments := withoutDots (Path.slashPieces path)
  Text.ofBytesLenient (unescaped (['/'].intercalate segments))

end EntityScaffold.Web
