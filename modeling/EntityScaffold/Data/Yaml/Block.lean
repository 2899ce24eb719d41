import EntityScaffold.Data.Yaml.Line

/-!
# Block scalars

A block scalar is written on lines of its own, indented further than its parent. After `|` its
lines are kept, after `>` they fold unless a line starts with white space. The header says what
becomes of the line ends after the last line.
-/

namespace EntityScaffold.Yaml

/-- What becomes of the line ends after the last line. -/
inductive Chomping where
  | strip
  | clip
  | keep
  deriving DecidableEq

/-- What the header of a block scalar says. -/
structure BlockHeader where
  chomping : Chomping := .clip
  /-- How much deeper than the parent the lines are indented. -/
  indent : Option Nat := none

/-- The chomping that a sign asks for. -/
def chompingOf? : Char → Option Chomping
  | '+' => some .keep
  | '-' => some .strip
  | _ => none

/-- An indentation of at least one. -/
def indentOf? (c : Char) : Option Nat :=
  if c.isDigit ∧ c ≠ '0' then some (c.toNat - '0'.toNat) else none

/-- The header after the indicator and what follows it. -/
def blockHeader (s : List Char) : BlockHeader × List Char :=
  match s with
  | c :: d :: rest =>
    match chompingOf? c, indentOf? c, chompingOf? d, indentOf? d with
    | some p, _, _, some n => (⟨p, some n⟩, rest)
    | some p, _, _, none => (⟨p, none⟩, d :: rest)
    | none, some n, some p, _ => (⟨p, some n⟩, rest)
    | none, some n, none, _ => (⟨.clip, some n⟩, d :: rest)
    | none, none, _, _ => ({}, s)
  | [c] =>
    match chompingOf? c, indentOf? c with
    | some p, _ => (⟨p, none⟩, [])
    | none, some n => (⟨.clip, some n⟩, [])
    | none, none => ({}, s)
  | [] => ({}, s)

/-- Line ends before a line, the indentation of that line, and its text on. -/
structure BlankLines where
  ends : List Char
  column : Nat
  rest : List Char

/-- Goes over spaces and blank lines. The greatest number of spaces comes first. -/
def measureIndent (deepest column : Nat) (ends : List Char) (s : List Char) : Nat × BlankLines :=
  match s with
  | [] => (deepest, ⟨ends.reverse, column, []⟩)
  | c :: rest =>
    if c = ' ' then measureIndent (max deepest (column + 1)) (column + 1) ends rest
    else if isBreak c then measureIndent deepest 0 (lineEnd c :: ends) rest
    else (deepest, ⟨ends.reverse, column, s⟩)

/-- Goes over blank lines and at most `indent` spaces of each line. -/
def skipIndent (indent column : Nat) (ends : List Char) (s : List Char) : BlankLines :=
  match s with
  | [] => ⟨ends.reverse, column, []⟩
  | c :: rest =>
    if c = ' ' ∧ column < indent then skipIndent indent (column + 1) ends rest
    else if isBreak c then skipIndent indent 0 (lineEnd c :: ends) rest
    else ⟨ends.reverse, column, s⟩

/-- A line starts with white space. -/
def startsWithGap (s : List Char) : Bool := s.head?.any isGap

/-- The lines of a block scalar from one that has the right indentation on. The pieces read so far
come last first. What is given back are the pieces, the line end of the last line, the line ends
after it, and what follows. -/
def blockLines (folded : Bool) (indent : Nat) (pieces : List (List Char)) (s : List Char) :
    List (List Char) × List Char × BlankLines :=
  let line := s.takeWhile (!isBreak ·)
  let pieces := line :: pieces
  match s.drop line.length with
  | [] => (pieces, [], ⟨[], 0, []⟩)
  | c :: rest =>
    let after := skipIndent indent 0 [] rest
    if after.column = indent ∧ after.rest ≠ [] then
      let joins := folded && lineEnd c = '\n' && !startsWithGap s && !startsWithGap after.rest
      let between :=
        if joins then if after.ends.isEmpty then [' '] else after.ends
        else lineEnd c :: after.ends
      if _h : after.rest.length < s.length then
        blockLines folded indent (between :: pieces) after.rest
      else (pieces, [lineEnd c], after)
    else (pieces, [lineEnd c], after)
termination_by s.length

/-- The text of a block scalar after its indicator, and what follows it. The lines are indented by
`least` at least. -/
def readBlock (folded : Bool) (least : Nat) (s : List Char) :
    Except Error (String × BlankLines) := do
  let (header, rest) := blockHeader s
  if !atSpaceOrLineEnd rest then malformed
  else
    let rest ← skipEmptyRest rest
    let (indent, before) :=
      match header.indent with
      | some n =>
        let indent := least + n - 1
        (indent, skipIndent indent 0 [] rest)
      | none =>
        let (deepest, before) := measureIndent 0 0 [] rest
        (max least deepest, before)
    let (pieces, last, after) :=
      if before.column = indent ∧ before.rest ≠ [] then
        blockLines folded indent [before.ends] before.rest
      else ([], [], before)
    let tail :=
      match header.chomping with
      | .strip => []
      | .clip => last
      | .keep => last ++ after.ends
    return (String.ofList (pieces.reverse.flatten ++ tail), after)

end EntityScaffold.Yaml
