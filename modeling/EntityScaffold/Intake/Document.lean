import EntityScaffold.Data.Json.Reader
import EntityScaffold.Data.Yaml.Reader
import EntityScaffold.Intake.Request
import EntityScaffold.Package.Archive
import EntityScaffold.Text.Case
import EntityScaffold.Text.Newline

/-!
# Request files

A request is kept in a file whose suffix tells its format; what has no telling suffix is read as
YAML. The top of the document must be an object. `Document.load` reads such a file of a tree and
`DocumentError` says what can be wrong with it.

Model of `load_schema_file`, `_load_json_file` and `_load_yaml_file`.
-/

namespace EntityScaffold

/-- The formats of request files. -/
inductive DocumentFormat where
  | json
  | yaml
  deriving DecidableEq

namespace DocumentFormat

/-- The format of a file by its name. -/
def ofName (name : String) : DocumentFormat :=
  if Text.lowerCase (Path.suffix name) = ".json" then .json else .yaml

def name : DocumentFormat → String
  | .json => "JSON"
  | .yaml => "YAML"

/-- What the format calls an object. -/
def objectName : DocumentFormat → String
  | .json => "JSON object"
  | .yaml => "YAML mapping"

end DocumentFormat

/-- Why a request file gives no document. The path is the one that was asked for. -/
inductive DocumentError where
  | missing (path : String)
  | notFile (path : String)
  | unreadable (cause : FileError)
  | notJson (path : String) (detail : String)
  | notYaml (path : String)
  | impossibleValue (reason : String)
  | outOfRange
  | tooDeep
  | notObject (format : DocumentFormat) (kind : String)
  deriving DecidableEq

/-- The wording of an error. -/
def DocumentError.message : DocumentError → String
  | .missing path => s!"Schema file not found: {path}"
  | .notFile path => s!"Schema path is not a file: {path}"
  | .unreadable cause => cause.message
  | .notJson path detail => s!"Invalid JSON in {path}: {detail}"
  | .notYaml path => s!"Invalid YAML in {path}"
  | .impossibleValue reason => reason
  | .outOfRange => "A number is too large."
  | .tooDeep => "The document is nested too deeply."
  | .notObject format kind => s!"Expected a {format.objectName} at top level, got {kind}."

namespace Document

/-- Reads a text of a format. -/
def readAs (format : DocumentFormat) (path : String) (s : List Char) :
    Except DocumentError Value :=
  match format with
  | .json =>
    match Json.read s with
    | .ok v => .ok v
    | .error ⟨.oversizedInteger count, _⟩ => .error (.impossibleValue (tooManyDigits count))
    | .error ⟨.tooDeep, _⟩ => .error .tooDeep
    | .error e => .error (.notJson path (e.message s))
  | .yaml =>
    match Yaml.read s with
    | .ok v => .ok v
    | .error .malformed => .error (.notYaml path)
    | .error (.impossible reason) => .error (.impossibleValue reason)
    | .error .outOfRange => .error .outOfRange
    | .error .tooDeep => .error .tooDeep

/-- A document whose top is an object. -/
def checkObject (format : DocumentFormat) (v : Value) : Except DocumentError Value :=
  match v with
  | .object _ => .ok v
  | _ => .error (.notObject format v.kindName)

/-- Reads the document of the file where a path leads. Messages call the path `shown`. -/
def load (t : FileTree FileBody) (p : Path) (shown : String) : Except DocumentError Value :=
  match t.present? p with
  | .error e => .error (.unreadable e)
  | .ok none => .error (.missing shown)
  | .ok (some .directory) => .error (.notFile shown)
  | .ok (some (.file body)) =>
    match Text.ofBytes? body.data with
    | none => .error (.unreadable .notText)
    | some s => do
      let format := DocumentFormat.ofName (Path.name p)
      let v ← readAs format shown s
      checkObject format v

end Document

end EntityScaffold
