import EntityScaffold.Data.Yaml.Line

/-!
# Quoted scalars

Between single quotes every character stands for itself and a quote is written twice. Between
double quotes a backslash starts an escape, and one at the end of a line joins it with the next.
In both, white space around line ends folds.

An escape for half of a surrogate pair stands for no character. It is read as the replacement
character, which is a limit of this reader: documents are taken to hold none.
-/

namespace EntityScaffold.Yaml

/-- The two kinds of quotes. -/
inductive Quote where
  | single
  | double
  deriving DecidableEq

/-- The character of a quote. -/
def Quote.char : Quote → Char
  | .single => '\''
  | .double => '"'

/-- The line ends of the blank lines at the head of a text, and what follows the blanks of the
line after them. No scalar goes on over the end of a document. -/
def blankLines (s : List Char) : Except Error (List Char × List Char) :=
  if atDocumentMarker s then malformed
  else
    match s.dropWhile isGap with
    | [] => .ok ([], [])
    | c :: rest =>
      if isBreak c then
        if _h : rest.length < s.length then
          match blankLines rest with
          | .ok (ends, rest) => .ok (lineEnd c :: ends, rest)
          | .error e => .error e
        else malformed
      else .ok ([], c :: rest)
termination_by s.length

/-- The characters that a letter after a backslash stands for. -/
def simpleEscapes : List (Char × Char) :=
  [('0', '\x00'), ('a', '\x07'), ('b', '\x08'), ('t', '\t'), ('\t', '\t'), ('n', '\n'),
    ('v', '\x0b'), ('f', '\x0c'), ('r', '\r'), ('e', '\x1b'), (' ', ' '), ('"', '"'),
    ('\\', '\\'), ('/', '/'), ('N', '\x85'), ('_', '\xA0'), ('L', '\u2028'), ('P', '\u2029')]

/-- The number of hexadecimal digits after a letter that announces a code. -/
def codeLength? : Char → Option Nat
  | 'x' => some 2
  | 'u' => some 4
  | 'U' => some 8
  | _ => none

/-- The character of a code. A code that fills a word of 32 bits, sign and all, is out of range; a
lower one that is no character is impossible, but a surrogate is read as the replacement
character. -/
def charOfCode (n : Nat) : Except Error Char :=
  if 0x80000000 ≤ n then .error .outOfRange
  else if 0x110000 ≤ n then .error (.impossible "chr() arg not in range(0x110000)")
  else if 0xD800 ≤ n ∧ n < 0xE000 then .ok (Char.ofNat 0xFFFD)
  else .ok (Char.ofNat n)

/-- What the escape after a backslash stands for, and what follows it. -/
def escape (s : List Char) : Except Error (List Char × List Char) :=
  match s with
  | [] => malformed
  | c :: rest =>
    match simpleEscapes.lookup c, codeLength? c with
    | some x, _ => .ok ([x], rest)
    | none, some n =>
      if rest.length < n then malformed
      else
        match hexNumber? (rest.take n) with
        | none => malformed
        | some code => (charOfCode code).map fun x => ([x], rest.drop n)
    | none, none => if isBreak c then blankLines rest else malformed

/-- White space inside a scalar and what follows it. At a line end the blanks are dropped. -/
def innerSpace (s : List Char) : Except Error (List Char × List Char) :=
  match s.dropWhile isGap with
  | [] => malformed
  | c :: rest =>
    if isBreak c then (blankLines rest).map fun r => (fold c r.1, r.2)
    else .ok (s.takeWhile isGap, c :: rest)

/-- The next piece of a quoted scalar and what follows it, or `none` for the piece when the closing
quote is reached. -/
def quotedPiece (q : Quote) (s : List Char) : Except Error (Option (List Char) × List Char) :=
  match s with
  | [] => malformed
  | c :: rest =>
    if c = q.char then
      if q = .single ∧ rest.head? = some '\'' then .ok (some ['\''], rest.drop 1)
      else .ok (none, rest)
    else if q = .double ∧ c = '\\' then (escape rest).map fun r => (some r.1, r.2)
    else if isGap c || isBreak c then (innerSpace s).map fun r => (some r.1, r.2)
    else .ok (some [c], rest)

/-- The text of a quoted scalar after its opening quote, and what follows the closing one. The
pieces read so far come last first. -/
def readQuoted (q : Quote) (pieces : List (List Char)) (s : List Char) :
    Except Error (String × List Char) :=
  match quotedPiece q s with
  | .error e => .error e
  | .ok (none, rest) => .ok (String.ofList pieces.reverse.flatten, rest)
  | .ok (some piece, rest) =>
    if _h : rest.length < s.length then readQuoted q (piece :: pieces) rest else malformed
termination_by s.length

end EntityScaffold.Yaml
