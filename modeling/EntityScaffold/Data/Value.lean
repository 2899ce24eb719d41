import EntityScaffold.Data.Stamp
import EntityScaffold.Number.Literal
import EntityScaffold.Text.Quoted

/-!
# Document values

What a request document holds before it is read as a request: scalars, lists, and objects whose
members keep the order in which they were written. Integers are exact and differ from
double-precision numbers; a calendar date is a scalar of its own.
-/

namespace EntityScaffold

/-- A value without parts. -/
inductive Scalar where
  | null
  | bool (b : Bool)
  | int (n : Int)
  | float (x : Binary64)
  | text (s : String)
  /-- A calendar date or time. -/
  | stamp (s : Stamp)
  deriving DecidableEq, Inhabited

/-- A document value. Members of an object may have any scalar as key. -/
inductive Value where
  | scalar (s : Scalar)
  | list (items : List Value)
  | object (members : List (Scalar × Value))
  deriving Inhabited

namespace Value

@[match_pattern] abbrev null : Value := .scalar .null
@[match_pattern] abbrev bool (b : Bool) : Value := .scalar (.bool b)
@[match_pattern] abbrev int (n : Int) : Value := .scalar (.int n)
@[match_pattern] abbrev float (x : Binary64) : Value := .scalar (.float x)
@[match_pattern] abbrev text (s : String) : Value := .scalar (.text s)

/-- An optional value, absent as `null`. -/
def ofOption (f : α → Value) : Option α → Value
  | none => .null
  | some a => f a

/-- An object whose keys are texts. -/
def ofMembers (members : List (String × Value)) : Value :=
  .object (members.map fun m => (.text m.1, m.2))

/-- The members of an object. -/
def members : Value → List (Scalar × Value)
  | .object ms => ms
  | _ => []

/-- The items of a list. -/
def items : Value → List Value
  | .list vs => vs
  | _ => []

/-- The value under a text key. -/
def get? (v : Value) (key : String) : Option Value := v.members.lookup (.text key)

/-- The name of a value's kind, as reports of a wrong top level give it. -/
def kindName : Value → String
  | .scalar .null => "NoneType"
  | .scalar (.bool _) => "bool"
  | .scalar (.int _) => "int"
  | .scalar (.float _) => "float"
  | .scalar (.text _) => "str"
  | .scalar (.stamp s) => s.kindName
  | .list _ => "list"
  | .object _ => "dict"

end Value

/-- An integer has too many decimal digits to be written. -/
def isUnwritable (n : Int) : Bool := digitLimit < (digitsOf n.natAbs).length

/-- An integer as the text of a key. One with too many digits to be written shows its kind. -/
def integerKeyText (n : Int) : String :=
  if isUnwritable n then "<unprintable int object>" else intText n

/-- A scalar as the text of a key. Truth values are written as numbers. -/
def Scalar.keyText : Scalar → String
  | .null => "None"
  | .bool true => "1"
  | .bool false => "0"
  | .int n => integerKeyText n
  | .float x => x.toText
  | .text s => s
  | .stamp s => s.display

/-- Members with one more: a key that occurs already keeps its place and takes the new value. -/
def putMember [BEq κ] (members : List (κ × α)) (key : κ) (value : α) : List (κ × α) :=
  match members with
  | [] => [(key, value)]
  | m :: rest => if m.1 == key then (m.1, value) :: rest else m :: putMember rest key value

/-- Members in order of their first occurrence, each with its last value. -/
def collectMembers [BEq κ] (pairs : List (κ × α)) : List (κ × α) :=
  pairs.foldl (fun ms p => putMember ms p.1 p.2) []

end EntityScaffold
