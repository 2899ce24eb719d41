import EntityScaffold.Text.Lines

/-!
# Layout of generated code

Code is laid out as lines with a depth of indentation; four blanks stand for one step. A block
is its heads followed by a body in braces, one step further in.

Model of `_file_prologue` and `_finish`. The depth of a line is a number here and blanks in the
templates.
-/

namespace EntityScaffold.Code

/-- A line and its depth. -/
structure Line where
  depth : Nat
  text : String
  deriving DecidableEq

/-- A line as it stands in the file. An empty line has no blanks. -/
def Line.render (l : Line) : String :=
  if l.text.isEmpty then "" else String.ofList (List.replicate (4 * l.depth) ' ') ++ l.text

/-- A line that is not indented. -/
def line (text : String) : List Line := [⟨0, text⟩]

/-- Several lines that are not indented. -/
def lines (texts : List String) : List Line := texts.map fun t => ⟨0, t⟩

/-- An empty line. -/
def blank : List Line := line ""

/-- The lines, one step further in. -/
def indent (ls : List Line) : List Line := ls.map fun l => { l with depth := l.depth + 1 }

/-- The lines of a body in braces; `tail` follows the closing one. -/
def braced (body : List Line) (tail : String) : List Line :=
  line "\x7b" ++ indent body ++ line ("\x7d" ++ tail)

/-- A head and its body in braces. -/
def block (head : String) (body : List Line) : List Line := line head ++ braced body ""

/-- Groups of lines with an empty line between them. -/
def spaced : List (List Line) → List Line
  | [] => []
  | [g] => g
  | g :: gs => g ++ blank ++ spaced gs

/-- A complete source file: what it uses, its namespace, and the declarations in it. -/
structure SourceFile where
  usings : List String
  home : String
  body : List Line

/-- The first line of every file. -/
def headline : String := "// <auto-generated>Generated by dbscaffold.</auto-generated>"

/-- The lines before the declarations of a file. -/
def SourceFile.prologue (f : SourceFile) : List String :=
  headline :: f.usings.map (fun u => s!"using {u};") ++ ["", s!"namespace {f.home};", ""]

/-- The text of a file. -/
def SourceFile.text (f : SourceFile) : String :=
  Text.fileText (f.prologue ++ f.body.map Line.render)

end EntityScaffold.Code
