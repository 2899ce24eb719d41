import EntityScaffold.Data.Yaml.Block
import EntityScaffold.Data.Yaml.Plain
import EntityScaffold.Data.Yaml.Quoted

/-!
# Tokens of YAML texts

A text is cut into tokens before its structure is read. Indentation becomes tokens too: a block
opens with a token where a line is indented further and closes where one is indented less.

A key without an indicator of its own shows only at the colon after it. Until then its place is
remembered as a `KeyCandidate`; when the colon comes, the tokens that open a key go there.
-/

namespace EntityScaffold.Yaml

/-- A token. -/
inductive Token where
  /-- A line for the reader of the text, with its name and what follows that. -/
  | directive (name : String) (value : List Char)
  | documentStart
  | documentEnd
  | blockSequenceStart
  | blockMappingStart
  | blockEnd
  | flowSequenceStart
  | flowSequenceEnd
  | flowMappingStart
  | flowMappingEnd
  | blockEntry
  | flowEntry
  | key
  | value
  | alias (name : String)
  | anchor (name : String)
  /-- A handle, unless the tag is written in full, and the rest of the tag. -/
  | tag (handle : Option String) (name : String)
  | scalar (text : String) (plain : Bool)
  deriving DecidableEq

/-- A place in a text: how many characters and lines come before it, how far into its line it
is, and what follows. -/
structure Place where
  index : Nat := 0
  line : Nat := 0
  column : Nat := 0
  rest : List Char

namespace Place

/-- The place after one more character. -/
def next (p : Place) : Place :=
  match p.rest with
  | [] => p
  | c :: rest =>
    if isBreak c then ⟨p.index + 1, p.line + 1, 0, rest⟩
    else ⟨p.index + 1, p.line, if c = '\uFEFF' then p.column else p.column + 1, rest⟩

/-- The place after `n` more characters. -/
def skip (p : Place) : Nat → Place
  | 0 => p
  | n + 1 => p.next.skip n

/-- The place where only `rest` is left. -/
def upTo (p : Place) (rest : List Char) : Place := p.skip (p.rest.length - rest.length)

end Place

/-- A place where a key may have begun. -/
structure KeyCandidate where
  /-- How many tokens come before it. -/
  tokens : Nat
  /-- Nothing but a key can stand there. -/
  required : Bool
  place : Place

/-- The state of cutting a text into tokens. -/
structure Lexer where
  place : Place
  /-- The tokens so far, last first. -/
  tokens : List Token := []
  /-- The columns of the open blocks, innermost first. -/
  indents : List Nat := []
  /-- For each open bracket, innermost first, and last for the text outside: where a key may have
  begun. -/
  candidates : List (Option KeyCandidate) := [none]
  /-- A key, or a block, may begin here. -/
  mayBegin : Bool := true

namespace Lexer

def context (l : Lexer) : Context := if l.candidates.length ≤ 1 then .block else .flow

/-- The least column of the lines inside the innermost block. -/
def innerIndent (l : Lexer) : Nat := (l.indents.head?.map (· + 1)).getD 0

def push (l : Lexer) (t : Token) : Lexer := { l with tokens := t :: l.tokens }

/-- Goes to where only `rest` is left. -/
def upTo (l : Lexer) (rest : List Char) : Lexer := { l with place := l.place.upTo rest }

def skip (l : Lexer) (n : Nat) : Lexer := { l with place := l.place.skip n }

/-- The greatest distance between the start of a key and its colon. -/
def keyLimit : Nat := 1024

/-- Forgets a place where a key may have begun, unless one had to. -/
def dropCandidate : Option KeyCandidate → Except Error (Option KeyCandidate)
  | some k => if k.required then malformed else .ok none
  | none => .ok none

/-- Forgets the places that are too far away or on another line. -/
def dropStale (l : Lexer) : Except Error Lexer := do
  let candidates ← l.candidates.mapM fun k =>
    match k with
    | some c =>
      if c.place.line ≠ l.place.line ∨ keyLimit < l.place.index - c.place.index then dropCandidate k
      else .ok k
    | none => .ok k
  return { l with candidates }

/-- Forgets the place among the innermost brackets. -/
def dropInnermost (l : Lexer) : Except Error Lexer := do
  match l.candidates with
  | [] => malformed
  | k :: ks =>
    let k ← dropCandidate k
    return { l with candidates := k :: ks }

/-- Remembers this place, if a key may begin here. -/
def remember (l : Lexer) : Except Error Lexer := do
  if l.mayBegin then
    let required := l.context = .block && l.indents.head? = some l.place.column
    let l ← l.dropInnermost
    return { l with candidates := some ⟨l.tokens.length, required, l.place⟩ :: l.candidates.drop 1 }
  else return l

/-- Closes the blocks that lines at a column are not part of. -/
def unwind (l : Lexer) (column : Nat) : Lexer :=
  if l.context = .flow then l
  else
    let closed := l.indents.takeWhile (column < ·)
    { l with
      indents := l.indents.drop closed.length
      tokens := List.replicate closed.length .blockEnd ++ l.tokens }

/-- Closes all blocks. -/
def unwindAll (l : Lexer) : Lexer :=
  if l.context = .flow then l
  else { l with
    indents := []
    tokens := List.replicate l.indents.length .blockEnd ++ l.tokens }

/-- A block at a column is deeper than all open ones. -/
def isDeeper (l : Lexer) (column : Nat) : Bool := l.indents.head?.all (· < column)

/-- Spaces, comments and line ends at the head of a text: how many characters they take, and
whether a line ends among them. -/
def spaceBefore (comment : Bool) : List Char → Nat × Bool
  | [] => (0, false)
  | c :: rest =>
    if isBreak c then ((spaceBefore false rest).1 + 1, true)
    else if comment || c == ' ' || c == '#' then
      let (size, newLine) := spaceBefore (comment || c == '#') rest
      (size + 1, newLine)
    else (0, false)

/-- Goes over spaces, comments and line ends. -/
def skipSpace (l : Lexer) : Lexer :=
  let (size, newLine) := spaceBefore false l.place.rest
  { l.skip size with mayBegin := l.mayBegin || (newLine && l.context = .block) }

/-! ## Single tokens -/

/-- A character of the names of anchors, handles and directives. -/
def isNameChar (c : Char) : Bool := c.isAlphanum || c == '-' || c == '_'

/-- A document start or end. -/
def marker (l : Lexer) (t : Token) : Except Error Lexer := do
  let l ← l.unwindAll.dropInnermost
  return ({ l with mayBegin := false }.skip 3).push t

/-- A directive, up to the end of its line. -/
def directive (l : Lexer) : Except Error Lexer := do
  let l ← l.unwindAll.dropInnermost
  let text := l.place.rest.drop 1
  let name := text.takeWhile isNameChar
  let rest := text.drop name.length
  if name.isEmpty || !atSpaceOrLineEnd rest then malformed
  else
    let value := rest.takeWhile (!isBreak ·)
    return ({ l with mayBegin := false }.upTo (rest.drop value.length)).push
      (.directive (String.ofList name) value)

/-- How many brackets may be open. -/
def bracketLimit : Nat := 2048

/-- An opening bracket. -/
def openBracket (l : Lexer) (t : Token) : Except Error Lexer := do
  let l ← l.remember
  if bracketLimit < l.candidates.length then throw .tooDeep
  else return ({ l with candidates := none :: l.candidates, mayBegin := true }.skip 1).push t

/-- A closing bracket. -/
def closeBracket (l : Lexer) (t : Token) : Except Error Lexer := do
  let l ← l.dropInnermost
  match l.candidates with
  | _ :: k :: ks => return ({ l with candidates := k :: ks, mayBegin := false }.skip 1).push t
  | _ => malformed

/-- A comma between brackets. -/
def entry (l : Lexer) : Except Error Lexer := do
  let l ← l.dropInnermost
  return ({ l with mayBegin := true }.skip 1).push .flowEntry

/-- Opens a block at this column, if it is deeper than the open ones. -/
def openBlock (l : Lexer) (t : Token) : Lexer :=
  if l.isDeeper l.place.column then
    { l with indents := l.place.column :: l.indents }.push t
  else l

/-- The indicator of an item of a block. -/
def blockEntry (l : Lexer) : Except Error Lexer := do
  if l.context = .block && !l.mayBegin then malformed
  else
    let l := if l.context = .block then l.openBlock .blockSequenceStart else l
    let l ← l.dropInnermost
    return ({ l with mayBegin := true }.skip 1).push .blockEntry

/-- The indicator of a key. -/
def keyIndicator (l : Lexer) : Except Error Lexer := do
  if l.context = .block && !l.mayBegin then malformed
  else
    let block : Bool := l.context = .block
    let l ← (if block then l.openBlock .blockMappingStart else l).dropInnermost
    return ({ l with mayBegin := block }.skip 1).push .key

/-- Puts the tokens that open a key at the place of a candidate. -/
def insertKey (l : Lexer) (k : KeyCandidate) : Lexer :=
  let opens := l.context = .block && l.isDeeper k.place.column
  let after := l.tokens.take (l.tokens.length - k.tokens)
  let before := l.tokens.drop after.length
  { l with
    indents := if opens then k.place.column :: l.indents else l.indents
    tokens := after ++ .key :: (if opens then [.blockMappingStart] else []) ++ before }

/-- The indicator of a value. -/
def valueIndicator (l : Lexer) : Except Error Lexer := do
  match l.candidates with
  | some k :: ks =>
    return ({ l.insertKey k with candidates := none :: ks, mayBegin := false }.skip 1).push .value
  | _ =>
    if l.context = .block && !l.mayBegin then malformed
    else
      let block : Bool := l.context = .block
      let l := if block then l.openBlock .blockMappingStart else l
      return ({ l with mayBegin := block }.skip 1).push .value

/-- The end of the name of an anchor or an alias. -/
def atNameEnd (s : List Char) : Bool :=
  atWordEnd s || s.head?.any fun c => ['?', ':', ',', ']', '\x7d', '%', '@', '\x60'].contains c

/-- An anchor or an alias. -/
def named (l : Lexer) (token : String → Token) : Except Error Lexer := do
  let l ← l.remember
  let text := l.place.rest.drop 1
  let name := text.takeWhile isNameChar
  let rest := text.drop name.length
  if name.isEmpty || !atNameEnd rest then malformed
  else return ({ l with mayBegin := false }.upTo rest).push (token (String.ofList name))

/-- A character of a tag. -/
def isTagChar (c : Char) : Bool := c.isAlphanum || "-;/?:@&=+$,_.!~*'()[]%".toList.contains c

/-- A tag. -/
def tag (l : Lexer) : Except Error Lexer := do
  let l ← l.remember
  let text := l.place.rest.drop 1
  let (handle, name, rest) :=
    if text.head? = some '<' then
      let name := (text.drop 1).takeWhile isTagChar
      (none, name, text.drop (name.length + 1))
    else if atWordEnd text then (none, ['!'], text)
    else
      let handle := text.takeWhile isNameChar
      if (text.drop handle.length).head? = some '!' then
        let after := text.drop (handle.length + 1)
        let name := after.takeWhile isTagChar
        (some ("!" ++ String.ofList handle ++ "!"), name, after.drop name.length)
      else
        let name := text.takeWhile isTagChar
        (some "!", name, text.drop name.length)
  let closed := handle ≠ none || text.head? ≠ some '<' || rest.head? = some '>'
  let rest := if text.head? = some '<' then rest.drop 1 else rest
  if name.isEmpty || !closed || !atSpaceOrLineEnd rest then malformed
  else return ({ l with mayBegin := false }.upTo rest).push (.tag handle (String.ofList name))

/-- A block scalar. -/
def block (l : Lexer) (folded : Bool) : Except Error Lexer := do
  let l ← l.dropInnermost
  let (text, after) ← readBlock folded (max 1 l.innerIndent) (l.place.rest.drop 1)
  return ({ l with mayBegin := true }.upTo after.rest).push (.scalar text false)

/-- A quoted scalar. -/
def quoted (l : Lexer) (q : Quote) : Except Error Lexer := do
  let l ← l.remember
  let (text, rest) ← readQuoted q [] (l.place.rest.drop 1)
  return ({ l with mayBegin := false }.upTo rest).push (.scalar text false)

/-- A plain scalar. -/
def plain (l : Lexer) : Except Error Lexer := do
  let l ← l.remember
  let s := readPlain l.context l.innerIndent [] l.place.rest
  return ({ l with mayBegin := s.newLine }.upTo s.rest).push (.scalar s.text true)

/-- Characters that start no plain scalar. -/
def indicators : List Char := "-?:,[]\x7b\x7d#&*!|>'\"%@\x60".toList

/-- A plain scalar may start at the head of a text. -/
def startsPlain (context : Context) (s : List Char) : Bool :=
  match s with
  | [] => false
  | c :: rest =>
    !(atWordEnd s || indicators.contains c) ||
      (!atWordEnd rest && (c = '-' || (context = .block && (c = '?' || c = ':'))))

/-- The next token, at a place that is no space. -/
def token (l : Lexer) (c : Char) (rest : List Char) : Except Error Lexer :=
  let s := l.place.rest
  let flow : Bool := l.context = .flow
  let first : Bool := l.place.column = 0
  if c = '%' && first then l.directive
  else if first && atMarker '-' s then l.marker .documentStart
  else if first && atMarker '.' s then l.marker .documentEnd
  else if c = '[' then l.openBracket .flowSequenceStart
  else if c = '\x7b' then l.openBracket .flowMappingStart
  else if c = ']' then l.closeBracket .flowSequenceEnd
  else if c = '\x7d' then l.closeBracket .flowMappingEnd
  else if c = ',' then l.entry
  else if c = '-' && atWordEnd rest then l.blockEntry
  else if c = '?' && (flow || atWordEnd rest) then l.keyIndicator
  else if c = ':' && (flow || atWordEnd rest) then l.valueIndicator
  else if c = '*' then l.named .alias
  else if c = '&' then l.named .anchor
  else if c = '!' then l.tag
  else if c = '|' && !flow then l.block false
  else if c = '>' && !flow then l.block true
  else if c = '\'' then l.quoted .single
  else if c = '"' then l.quoted .double
  else if startsPlain l.context s then l.plain
  else malformed

/-- Goes on by one token. The second part of the answer says whether the text has ended. -/
def advance (l : Lexer) : Except Error (Lexer × Bool) := do
  let l ← l.skipSpace.dropStale
  let l := l.unwind l.place.column
  match l.place.rest with
  | [] => return (← l.unwindAll.dropInnermost, true)
  | c :: rest =>
    let l ← l.token c rest
    return (← l.dropStale, false)

/-- Cuts the rest of the text into tokens, as far as that can be done: the last state, and the
fault after it. Every token but those for blocks takes a character, so the length of the text
bounds the calls. -/
def run (l : Lexer) : Nat → Lexer × Option Error
  | 0 => (l, some .malformed)
  | fuel + 1 =>
    match l.advance with
    | .error e => (l, some e)
    | .ok (l, true) => (l, none)
    | .ok (l, false) => run l fuel

/-- The number of tokens before which no other can come any more, since no key begins before
them. -/
def settled (l : Lexer) : Nat :=
  l.candidates.foldl (fun n k => (k.map fun c => min n c.tokens).getD n) l.tokens.length

end Lexer

/-- A text as tokens: those that are settled before the first fault, and that fault. -/
structure Tokens where
  settled : List Token
  fault : Option Error := none

/-- The tokens of a text. -/
def Tokens.ofText (s : List Char) : Tokens :=
  if s.any (!isPrintable ·) then ⟨[], some .malformed⟩
  else
    let start : Place := { rest := s }
    let start := if s.head? = some '\uFEFF' then start.next else start
    let (l, fault) := Lexer.run { place := start } (s.length + 1)
    ⟨if fault.isSome then l.tokens.reverse.take l.settled else l.tokens.reverse, fault⟩

end EntityScaffold.Yaml
