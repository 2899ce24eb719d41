import EntityScaffold.Number.Notation
import EntityScaffold.Text.Quoted

/-!
# Faults of a request

A document that does not have the shape of a request is refused with every fault it has: where
the fault lies and what it is. `Problem.kind` and `Problem.message` give the two texts of each.
-/

namespace EntityScaffold

/-- A text of the right type that breaks a rule of its own. -/
inductive Rejection where
  | fragment (text : String)
  | rootNamespace (text : String)
  | className (text : String)
  | duplicateTables (names : List String)
  deriving DecidableEq

/-- The wording of a rejection. -/
def Rejection.message : Rejection → String
  | .fragment s => s!"'{s}' may only contain letters, digits and underscores."
  | .rootNamespace s => s!"'{s}' is not a valid dotted namespace."
  | .className s => s!"'{s}' is not a valid class name."
  | .duplicateTables names => "Duplicate table names: " ++ Text.quotedList names

/-- What is wrong at one place of a document. -/
inductive Problem where
  | missing
  | unknownKey
  | keyNotText
  /-- An object was expected for a record of the given title. -/
  | notRecord (title : String)
  | notObject
  | notList
  | notText
  | tooShort (least : Nat)
  | unreadableBool
  | notBool
  | unreadableInt
  | oversizedInt
  | fractionalInt
  | notFinite
  | notInt
  | belowLeast (least : Int)
  | unreadableFloat
  | notFloat
  | notOneOf (tokens : List String)
  | rejected (cause : Rejection)
  | noSuchAttribute (name : String)
  | frozen
  | invalidJson
  deriving DecidableEq

/-- Words in an enumeration: `'a', 'b' or 'c'`. -/
def alternatives : List String → String
  | [] => ""
  | [a] => s!"'{a}'"
  | [a, b] => s!"'{a}' or '{b}'"
  | a :: rest => s!"'{a}', " ++ alternatives rest

namespace Problem

/-- The name of a problem's kind. -/
def kind : Problem → String
  | .missing => "missing"
  | .unknownKey => "extra_forbidden"
  | .keyNotText => "invalid_key"
  | .notRecord _ => "model_type"
  | .notObject => "model_attributes_type"
  | .notList => "list_type"
  | .notText => "string_type"
  | .tooShort _ => "string_too_short"
  | .unreadableBool => "bool_parsing"
  | .notBool => "bool_type"
  | .unreadableInt => "int_parsing"
  | .oversizedInt => "int_parsing_size"
  | .fractionalInt => "int_from_float"
  | .notFinite => "finite_number"
  | .notInt => "int_type"
  | .belowLeast _ => "greater_than_equal"
  | .unreadableFloat => "float_parsing"
  | .notFloat => "float_type"
  | .notOneOf _ => "enum"
  | .rejected _ => "value_error"
  | .noSuchAttribute _ => "no_such_attribute"
  | .frozen => "frozen_instance"
  | .invalidJson => "json_invalid"

/-- The wording of a problem. -/
def message : Problem → String
  | .missing => "Field required"
  | .unknownKey => "Extra inputs are not permitted"
  | .keyNotText => "Keys should be strings"
  | .notRecord title => s!"Input should be a valid dictionary or instance of {title}"
  | .notObject => "Input should be a valid dictionary or object to extract fields from"
  | .notList => "Input should be a valid list"
  | .notText => "Input should be a valid string"
  | .tooShort least =>
    s!"String should have at least {least} character" ++ (if least = 1 then "" else "s")
  | .unreadableBool => "Input should be a valid boolean, unable to interpret input"
  | .notBool => "Input should be a valid boolean"
  | .unreadableInt => "Input should be a valid integer, unable to parse string as an integer"
  | .oversizedInt => "Unable to parse input string as an integer, exceeded maximum size"
  | .fractionalInt =>
    "Input should be a valid integer, got a number with a fractional part"
  | .notFinite => "Input should be a finite number"
  | .notInt => "Input should be a valid integer"
  | .belowLeast least => "Input should be greater than or equal to " ++ intText least
  | .unreadableFloat => "Input should be a valid number, unable to parse string as a number"
  | .notFloat => "Input should be a valid number"
  | .notOneOf tokens => "Input should be " ++ alternatives tokens
  | .rejected cause => "Value error, " ++ cause.message
  | .noSuchAttribute name => s!"Object has no attribute '{name}'"
  | .frozen => "Instance is frozen"
  | .invalidJson => "JSON decode error"

end Problem

/-- A problem and the path of keys and indices to it. -/
structure Fault where
  path : List String
  problem : Problem
  deriving DecidableEq

/-- The path in one text. -/
def Fault.location (f : Fault) : String := ".".intercalate f.path

end EntityScaffold
