import EntityScaffold.Data.Yaml.Line

/-!
# Plain scalars

A plain scalar is a run of words without quotes. It ends before a comment, before a colon that
ends a word, inside brackets also before an indicator, and in a block at a line that is not
indented far enough.
-/

namespace EntityScaffold.Yaml

/-- Where a node stands: among the lines of a block, or inside brackets. -/
inductive Context where
  | block
  | flow
  deriving DecidableEq

/-- An indicator that ends plain scalars inside brackets. -/
def isFlowIndicator (c : Char) : Bool := [',', '?', '[', ']', '\x7b', '\x7d'].contains c

/-- A plain scalar goes on with the first character of a text. -/
def goesOn (context : Context) (s : List Char) : Bool :=
  match s with
  | [] => false
  | ':' :: rest =>
    !(atWordEnd rest || (context = .flow && rest.head?.any fun c => isFlowIndicator c && c ≠ '?'))
  | c :: _ => !(isGap c || isBreak c || (context = .flow && isFlowIndicator c))

/-- The word at the head of a text and what follows it. -/
def plainWord (context : Context) (s : List Char) : List Char × List Char :=
  match s with
  | [] => ([], [])
  | c :: rest =>
    if goesOn context s then
      let (word, rest) := plainWord context rest
      (c :: word, rest)
    else ([], s)

/-- White space between two words of a plain scalar. -/
structure Gap where
  /-- What the white space counts for. -/
  text : List Char
  /-- A line ended. -/
  newLine : Bool
  /-- Spaces since the last line end. -/
  column : Nat
  /-- A document ends here. -/
  closed : Bool := false
  rest : List Char

/-- Goes over the spaces and blank lines after a line end, which is not among `ends`. -/
def gapLines (first : Char) (ends : List Char) (column : Nat) (s : List Char) : Gap :=
  match s with
  | [] => ⟨fold first ends.reverse, true, column, false, []⟩
  | c :: rest =>
    if c = ' ' then gapLines first ends (column + 1) rest
    else if isBreak c then
      if atDocumentMarker rest then ⟨[], true, 0, true, rest⟩
      else gapLines first (lineEnd c :: ends) 0 rest
    else ⟨fold first ends.reverse, true, column, false, s⟩

/-- The white space at the head of a text. -/
def gap (s : List Char) : Gap :=
  let spaces := s.takeWhile (· == ' ')
  match s.drop spaces.length with
  | [] => ⟨spaces, false, spaces.length, false, []⟩
  | c :: rest =>
    if isBreak c then
      if atDocumentMarker rest then ⟨[], true, 0, true, rest⟩ else gapLines c [] 0 rest
    else ⟨spaces, false, spaces.length, false, c :: rest⟩

/-- A plain scalar that was read. -/
structure PlainScalar where
  text : String
  /-- A line ended after the last word. -/
  newLine : Bool
  rest : List Char

/-- Reads a plain scalar from a word on. Its lines are indented by `indent` at least; the pieces
read so far come last first. -/
def readPlain (context : Context) (indent : Nat) (pieces : List (List Char)) (s : List Char) :
    PlainScalar :=
  let (word, rest) := plainWord context s
  let g := gap rest
  let pieces := word :: pieces
  let finish (pieces : List (List Char)) (newLine : Bool) (rest : List Char) : PlainScalar :=
    ⟨String.ofList pieces.reverse.flatten, newLine, rest⟩
  let ends := g.text.isEmpty || g.closed || g.rest.head? = some '#' ||
    (context = .block && g.newLine && g.column < indent) || !goesOn context g.rest
  if ends then finish pieces g.newLine g.rest
  else if _h : g.rest.length < s.length then readPlain context indent (g.text :: pieces) g.rest
  else finish pieces g.newLine g.rest
termination_by s.length

end EntityScaffold.Yaml
