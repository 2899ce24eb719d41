import EntityScaffold.Data.Value
import EntityScaffold.Intake.NumberText

/-!
# Reading values

A reading of a document value gives what was meant or every fault found on the way. Requests
come from forms and from hand-written files, so readings are lenient: a flag may be written as a
word, a number as a text.

* `Reading`: the result; `Reading.map₂` and `readItems` collect the faults of all parts.
* `Codec`: a reading of one type together with the value that stands for what was read.
-/

namespace EntityScaffold

/-- What was read, or the faults. -/
abbrev Reading (α : Type) := Except (List Fault) α

/-- Where a document comes from. It decides how a report calls something that is no object. -/
inductive Origin where
  /-- A document that a program hands over. -/
  | document
  /-- The body of a web request. -/
  | body
  deriving DecidableEq

/-- The problem of a value that should have been an object. -/
def Origin.noObject : Origin → String → Problem
  | .document, title => .notRecord title
  | .body, _ => .notObject

namespace Reading

/-- A single fault at the value itself. -/
def fail (p : Problem) : Reading α := .error [⟨[], p⟩]

/-- The reading, as one that was made under a key or an index. -/
def under (key : String) : Reading α → Reading α
  | .ok a => .ok a
  | .error fs => .error (fs.map fun f => { f with path := key :: f.path })

/-- Both readings, with the faults of both. -/
def map₂ (f : α → β → γ) : Reading α → Reading β → Reading γ
  | .ok a, .ok b => .ok (f a b)
  | .ok _, .error fs => .error fs
  | .error fs, .ok _ => .error fs
  | .error fs, .error gs => .error (fs ++ gs)

end Reading

/-- Reads the items of a list, counting from `index`. -/
def readItems (f : Value → Reading α) (index : Nat) : List Value → Reading (List α)
  | [] => .ok []
  | v :: vs =>
    Reading.map₂ (· :: ·) ((f v).under (intText index)) (readItems f (index + 1) vs)

/-! ## Flags -/

/-- Words for true and false; only letters of ASCII lose their case. -/
def flagWord? (s : String) : Option Bool :=
  let word := String.ofList (s.toList.map Char.toLower)
  if ["0", "off", "f", "false", "n", "no"].contains word then some false
  else if ["1", "on", "t", "true", "y", "yes"].contains word then some true
  else none

/-- The integer that a finite number of magnitude below `2 ^ 63` is equal to. -/
def smallInt? (x : Binary64) : Option Int :=
  x.toInt?.filter fun n => n.natAbs < twoTo 63

/-- An integer as a flag. -/
def flagOfInt (n : Int) : Reading Bool :=
  if n = 0 then .ok false else if n = 1 then .ok true else .fail .unreadableBool

/-- Reads a flag. -/
def readBool : Value → Reading Bool
  | .bool b => .ok b
  | .int n =>
    if n.natAbs < twoTo 63 ∨ n = -(twoTo 63 : Int) then flagOfInt n else .fail .notBool
  | .float x =>
    match smallInt? x with
    | some n => flagOfInt n
    | none => .fail .notBool
  | .text s =>
    match flagWord? s with
    | some b => .ok b
    | none => .fail .unreadableBool
  | _ => .fail .notBool

/-! ## Numbers -/

/-- Reads an integer. -/
def readInt : Value → Reading Int
  | .int n => .ok n
  | .bool b => .ok (if b then 1 else 0)
  | .float x =>
    if !x.isFinite then .fail .notFinite
    else
      match x.toInt? with
      | none => .fail .fractionalInt
      | some n => if n.natAbs < twoTo 63 then .ok n else .fail .oversizedInt
  | .text s =>
    match intOfText s with
    | .ok n => .ok n
    | .error p => .fail p
  | _ => .fail .notInt

/-- Reads an integer that is not below a bound. -/
def readIntFrom (least : Int) (v : Value) : Reading Int := do
  let n ← readInt v
  if n < least then .fail (.belowLeast least) else return n

/-- Reads a double-precision number. -/
def readFloat : Value → Reading Binary64
  | .float x => .ok x
  | .int n =>
    let x := Binary64.ofInt n
    if x.isFinite then .ok x else .fail .notFloat
  | .bool b => .ok (.ofInt (if b then 1 else 0))
  | .text s =>
    match floatOfText? s with
    | some x => .ok x
    | none => .fail .unreadableFloat
  | _ => .fail .notFloat

/-! ## Texts -/

/-- Reads a text. -/
def readText : Value → Reading String
  | .text s => .ok s
  | _ => .fail .notText

/-- Reads a text of at least one character. -/
def readSomeText (v : Value) : Reading String := do
  let s ← readText v
  if s.isEmpty then .fail (.tooShort 1) else return s

/-- Reads a text that must pass a test. -/
def readTextWhere (accepts : String → Bool) (cause : String → Rejection)
    (read : Value → Reading String) (v : Value) : Reading String := do
  let s ← read v
  if accepts s then return s else .fail (.rejected (cause s))

/-- Reads a value that may be absent. -/
def readOptional (f : Value → Reading α) : Value → Reading (Option α)
  | .null => .ok none
  | v => (f v).map some

/-- Reads a text that counts as absent when it is blank. -/
def readTextUnlessBlank : Value → Reading (Option String)
  | .text s => .ok (if Text.isBlank s then none else some s)
  | v => readOptional readText v

/-- Reads one of several words. -/
def readOneOf (tokens : List String) (ofToken? : String → Option α) : Value → Reading α
  | .text s =>
    match ofToken? s with
    | some a => .ok a
    | none => .fail (.notOneOf tokens)
  | _ => .fail (.notOneOf tokens)

/-! ## Codecs -/

/-- A reading of a type and the value that stands for what was read. -/
structure Codec (α : Type) where
  read : Origin → Value → Reading α
  dump : α → Value

namespace Codec

def bool : Codec Bool := ⟨fun _ => readBool, .bool⟩

def text : Codec String := ⟨fun _ => readText, .text⟩

def someText : Codec String := ⟨fun _ => readSomeText, .text⟩

def textUnlessBlank : Codec (Option String) :=
  ⟨fun _ => readTextUnlessBlank, Value.ofOption .text⟩

def int : Codec Int := ⟨fun _ => readInt, .int⟩

def intFrom (least : Int) : Codec Int := ⟨fun _ => readIntFrom least, .int⟩

def float : Codec Binary64 := ⟨fun _ => readFloat, .float⟩

def textWhere (accepts : String → Bool) (cause : String → Rejection)
    (read : Value → Reading String) : Codec String :=
  ⟨fun _ => readTextWhere accepts cause read, .text⟩

/-- A value that may be absent. -/
def optional (c : Codec α) : Codec (Option α) :=
  ⟨fun o => readOptional (c.read o), Value.ofOption c.dump⟩

/-- A list of values. -/
def list (c : Codec α) : Codec (List α) where
  read o
    | .list vs => readItems (c.read o) 0 vs
    | _ => .fail .notList
  dump as := .list (as.map c.dump)

/-- One of several words. -/
def oneOf (all : List α) (token : α → String) (ofSpelling? : String → Option α) : Codec α :=
  ⟨fun _ => readOneOf (all.map token) ofSpelling?, fun a => .text (token a)⟩

end Codec

end EntityScaffold
