import EntityScaffold.Text.Blank
import EntityScaffold.Text.Case

/-!
# Logical data types

The ten column types of a schema, the words that requests may use for them, and the C# type and
sample value that stand for each.

Model of `DataType` and `csharp_type`.
-/

namespace EntityScaffold

/-- A logical column type. -/
inductive DataType where
  | integer32
  | integer64
  | text
  | boolean
  | datetime
  | decimal
  | double
  | float32
  | guid
  | byteSequence
  deriving DecidableEq

namespace DataType

/-- Every type, in the order in which messages list them. -/
def all : List DataType :=
  [.integer32, .integer64, .text, .boolean, .datetime, .decimal, .double, .float32, .guid,
    .byteSequence]

/-- The canonical word for a type. -/
def token : DataType → String
  | .integer32 => "integer32"
  | .integer64 => "integer64"
  | .text => "text"
  | .boolean => "boolean"
  | .datetime => "datetime"
  | .decimal => "decimal"
  | .double => "double"
  | .float32 => "float32"
  | .guid => "guid"
  | .byteSequence => "byte-sequence"

/-- The type with a canonical word. -/
def ofToken? (s : String) : Option DataType := all.find? fun t => t.token == s

/-- Other words for types. -/
def synonyms : List (String × DataType) :=
  [("int", .integer32), ("int32", .integer32), ("integer", .integer32), ("long", .integer64),
    ("int64", .integer64), ("string", .text), ("str", .text), ("bool", .boolean),
    ("float", .float32), ("single", .float32), ("byte[]", .byteSequence),
    ("bytes", .byteSequence), ("binary", .byteSequence), ("uuid", .guid)]

/-- The type that a request means by a word, whatever its case and the blanks around it. -/
def ofSpelling? (s : String) : Option DataType :=
  let word := Text.lowerCase (Text.strip s)
  match synonyms.lookup word with
  | some t => some t
  | none => ofToken? word

/-- The C# type of a required column. -/
def csharp : DataType → String
  | .integer32 => "int"
  | .integer64 => "long"
  | .text => "string"
  | .boolean => "bool"
  | .datetime => "DateTime"
  | .decimal => "decimal"
  | .double => "double"
  | .float32 => "float"
  | .guid => "Guid"
  | .byteSequence => "byte[]"

/-- Types whose C# type is a reference type, so that absence needs no mark. -/
def isReference : DataType → Bool
  | .text => true
  | .byteSequence => true
  | _ => false

/-- The C# type of a column. -/
def fieldType (t : DataType) (nullable : Bool) : String :=
  if nullable && !t.isReference then t.csharp ++ "?" else t.csharp

/-- A C# expression of the type, used where a test must fill in a value. -/
def sample : DataType → String
  | .integer32 => "1"
  | .integer64 => "1L"
  | .text => "\"sample\""
  | .boolean => "true"
  | .datetime => "new DateTime(2024, 1, 1)"
  | .decimal => "1m"
  | .double => "1d"
  | .float32 => "1f"
  | .guid => "Guid.NewGuid()"
  | .byteSequence => "new byte[] \x7b 1 \x7d"

end DataType

/-- The C# type for the canonical word of a type; any other word gives the top type. -/
def csharpTypeOf (token : String) (nullable : Bool) : String :=
  match DataType.ofToken? token with
  | some t => t.fieldType nullable
  | none => "object"

end EntityScaffold
