import EntityScaffold.CommandLine.Switch
import EntityScaffold.Intake.Reading
import EntityScaffold.Text.Digit
import EntityScaffold.Text.Identifier

/-!
# Reading the command line

Arguments are switches and the values that follow them. A long switch may be cut short as long as
only one begins so, and may carry its value after an equals sign; short switches may be run
together, the last one with its value. Words that belong to no switch are refused.

The words are first sorted into kinds, so that a word is known to be a switch before it could be
taken for a value; then they are read from the left, and the first switch that asks for help or
the version, or that is wrong, ends the reading.

Model of reading arguments with the parser that `_build_parser` sets up.
-/

namespace EntityScaffold.CommandLine

/-- What was asked for. -/
structure Arguments where
  schema : Option String := none
  output : Option String := none
  validateOnly : Bool := false
  dryRun : Bool := false
  serve : Bool := false
  strict : Bool := false
  host : Option String := none
  port : Option Int := none
  verbose : Nat := 0
  quiet : Bool := false
  deriving DecidableEq

/-- What is wrong with the arguments. -/
inductive ArgumentError where
  /-- A word could be short for several switches. -/
  | ambiguous (word : String) (matching : List String)
  | missingValue (s : Switch)
  /-- A switch that takes no value has one. -/
  | strayValue (s : Switch) (value : String)
  | notInteger (s : Switch) (value : String)
  | unrecognized (words : List String)
  deriving DecidableEq

/-- The wording of an error. -/
def ArgumentError.message : ArgumentError → String
  | .ambiguous word matching =>
    s!"ambiguous option: {word} could match " ++ ", ".intercalate matching
  | .missingValue s => s!"argument {s.title}: expected one argument"
  | .strayValue s value =>
    s!"argument {s.title}: ignored explicit argument " ++ Text.quoted value
  | .notInteger s value => s!"argument {s.title}: invalid int value: " ++ Text.quoted value
  | .unrecognized words => "unrecognized arguments: " ++ " ".intercalate words

/-- Why reading ends before there are arguments to act on. -/
inductive Stop where
  | help
  | version
  | error (e : ArgumentError)
  deriving DecidableEq

/-! ## Kinds of words -/

/-- A switch as it was written. -/
structure WrittenSwitch where
  switch : Switch
  /-- It was written with two hyphens. -/
  long : Bool
  /-- An equals sign stands before the value. -/
  separated : Bool := false
  value : Option String := none
  deriving DecidableEq

/-- The kind of a word. -/
inductive Word where
  | switch (w : WrittenSwitch)
  /-- A word in the form of a switch that is none. -/
  | unknown
  | plain
  /-- Two hyphens, after which every word is plain. -/
  | separator
  deriving DecidableEq

/-- What stands before and after the first equals sign. -/
def splitEquals (s : String) : String × Option String :=
  let cs := s.toList
  let name := cs.takeWhile (· ≠ '=')
  match cs.drop name.length with
  | [] => (s, none)
  | _ :: value => (String.ofList name, some (String.ofList value))

/-- A word is written with two hyphens. -/
def isLong (s : String) : Bool := s.startsWith "--"

/-- The switches that a word can be short for, with their spelling in full. -/
def candidates (word : String) : List (String × WrittenSwitch) :=
  if isLong word then
    let (name, value) := splitEquals word
    (Switch.table.filter (·.1.startsWith name)).map fun e =>
      (e.1, { switch := e.2, long := true, separated := value.isSome, value })
  else
    let short := String.ofList (word.toList.take 2)
    (Switch.table.filter (·.1 == short)).map fun e =>
      (e.1, { switch := e.2, long := false, value := some (String.ofList (word.toList.drop 2)) })

/-- Decimal digits, at most one point among them with a digit after it, and a minus sign before. -/
def looksNegative (word : String) : Bool :=
  match Text.dropFinalNewline word.toList with
  | '-' :: rest =>
    let whole := rest.takeWhile Text.isDecimalDigit
    match rest.drop whole.length with
    | [] => !whole.isEmpty
    | '.' :: fraction => !fraction.isEmpty && fraction.all Text.isDecimalDigit
    | _ => false
  | _ => false

/-- The kind of a word, or the spellings that it could be short for if there are several. -/
def wordKind (word : String) : Except (List String) Word :=
  let (name, value) := splitEquals word
  if word.toList.head? ≠ some '-' then .ok .plain
  else
    match Switch.table.lookup word with
    | some s => .ok (.switch { switch := s, long := isLong word })
    | none =>
      if word = "-" then .ok .plain
      else
        match Switch.table.lookup name, value with
        | some s, some v =>
          .ok (.switch { switch := s, long := isLong word, separated := true, value := some v })
        | _, _ =>
          match candidates word with
          | [c] => .ok (.switch c.2)
          | [] => .ok (if looksNegative word || word.toList.contains ' ' then .plain else .unknown)
          | cs => .error (cs.map (·.1))

/-- Every word with its kind. -/
def sortWords : List String → Except Stop (List (String × Word))
  | [] => .ok []
  | word :: rest =>
    if word = "--" then .ok ((word, .separator) :: rest.map fun w => (w, .plain))
    else
      match wordKind word with
      | .error matching => .error (.error (.ambiguous word matching))
      | .ok kind => (sortWords rest).map ((word, kind) :: ·)

/-! ## Switches run together -/

/-- A switch to act on, with its value. -/
structure Deed where
  switch : Switch
  value : Option String := none

/-- What one word asks for. -/
structure Reading where
  deeds : List Deed
  /-- The last switch needs the next word as its value. -/
  open? : Option Switch := none
  /-- The rest of the word, which is no switch. -/
  stray : Option String := none

/-- Reads the short switches that follow in a word. The switch `s` takes no value, stands at the
end of `deeds`, and `rest` follows it. -/
def readRunTogether (s : Switch) (deeds : List Deed) (rest : List Char) :
    Except ArgumentError Reading :=
  match rest with
  | [] => .ok { deeds }
  | c :: rest =>
    if c = '-' ∨ (c = '=' ∧ 1 < deeds.length) then
      .error (.strayValue s (String.ofList (if c = '-' then c :: rest else rest)))
    else
      match Switch.table.lookup (String.ofList ['-', c]) with
      | none => .ok { deeds, stray := some (String.ofList ('-' :: c :: rest)) }
      | some s' =>
        if s'.takesValue then
          match rest with
          | [] => .ok { deeds, open? := some s' }
          | '=' :: value => .ok { deeds := deeds ++ [⟨s', some (String.ofList value)⟩] }
          | value => .ok { deeds := deeds ++ [⟨s', some (String.ofList value)⟩] }
        else readRunTogether s' (deeds ++ [⟨s', none⟩]) rest

/-- Reads one switch as it was written. -/
def readSwitch (w : WrittenSwitch) : Except ArgumentError Reading :=
  match w.value with
  | none => .ok (if w.switch.takesValue then { deeds := [], open? := some w.switch }
      else { deeds := [⟨w.switch, none⟩] })
  | some v =>
    if w.switch.takesValue then .ok { deeds := [⟨w.switch, some v⟩] }
    else if w.long || w.separated || v.isEmpty then .error (.strayValue w.switch v)
    else readRunTogether w.switch [⟨w.switch, none⟩] v.toList

/-! ## Acting on switches -/

/-- Digits with single underscores between them, without the underscores. -/
def ungroupedDigits? : List Char → Option (List Char)
  | [] => none
  | [c] => if c.isDigit then some [c] else none
  | c :: '_' :: d :: rest =>
    if c.isDigit then (ungroupedDigits? (d :: rest)).map (c :: ·) else none
  | c :: rest => if c.isDigit then (ungroupedDigits? rest).map (c :: ·) else none

/-- The integer that a word writes in decimal digits of any script, which single underscores may
group. Blanks at its ends do not count. -/
def integer? (s : String) : Option Int :=
  let body := (Text.trimBy Text.isWhiteSpace s.toList).map Text.asciiDigit
  let signed := body.head? = some '-' ∨ body.head? = some '+'
  (ungroupedDigits? (if signed then body.drop 1 else body)).bind fun ds =>
    let n : Int := decimalNumber ds
    if digitLimit < ds.length then none else some (if body.head? = some '-' then -n else n)

/-- Acts on one switch. -/
def act (a : Arguments) (d : Deed) : Except Stop Arguments :=
  match d.switch with
  | .help => .error .help
  | .version => .error .version
  | .schema => .ok { a with schema := d.value }
  | .output => .ok { a with output := d.value }
  | .validateOnly => .ok { a with validateOnly := true }
  | .dryRun => .ok { a with dryRun := true }
  | .serve => .ok { a with serve := true }
  | .strict => .ok { a with strict := true }
  | .host => .ok { a with host := d.value }
  | .port =>
    match d.value with
    | none => .ok { a with port := none }
    | some text =>
      match integer? text with
      | some n => .ok { a with port := some n }
      | none => .error (.error (.notInteger .port text))
  | .verbose => .ok { a with verbose := a.verbose + 1 }
  | .quiet => .ok { a with quiet := true }

/-- Reads words from the left. The words that belong to no switch so far are `strays`. -/
def readWords (a : Arguments) (strays : List String) :
    List (String × Word) → Except Stop (Arguments × List String)
  | [] => .ok (a, strays)
  | (_, .switch w) :: rest =>
    match readSwitch w with
    | .error e => .error (.error e)
    | .ok r =>
      let strays := strays ++ r.stray.toList
      match r.open?, rest with
      | none, rest => do
        let a ← r.deeds.foldlM act a
        readWords a strays rest
      | some s, (value, .plain) :: rest => do
        let a ← (r.deeds ++ [Deed.mk s (some value)]).foldlM act a
        readWords a strays rest
      | some s, _ => .error (.error (.missingValue s))
  | (word, _) :: rest => readWords a (strays ++ [word]) rest

/-- Reads the words of a command line. -/
def Arguments.ofWords (words : List String) : Except Stop Arguments := do
  let sorted ← sortWords words
  let (a, strays) ← readWords {} [] sorted
  if strays.isEmpty then return a else .error (.error (.unrecognized strays))

end EntityScaffold.CommandLine
