import EntityScaffold.Code.Layout

/-!
# Method signatures

Methods of generated interfaces and classes: a result type, a name, and parameters that may have
default values.

Model of the texts in the list that `_service_signatures` gives; here a signature is kept in its
parts.
-/

namespace EntityScaffold

/-- A parameter of a method. -/
structure Parameter where
  type : String
  name : String
  default : Option String := none
  deriving DecidableEq

/-- A parameter as code. -/
def Parameter.code (p : Parameter) : String :=
  p.type ++ " " ++ p.name ++ (match p.default with
    | some d => " = " ++ d
    | none => "")

/-- The parameter that lets a caller give up. -/
def Parameter.cancellation : Parameter :=
  ⟨"CancellationToken", "cancellationToken", some "default"⟩

/-- The parameter that shows rows marked as deleted. -/
def Parameter.includeSoftDeleted : Parameter := ⟨"bool", "includeSoftDeleted", some "false"⟩

/-- The parameter that removes rows for good. -/
def Parameter.hardDelete : Parameter := ⟨"bool", "hardDelete", some "false"⟩

/-- The signature of a method. -/
structure Signature where
  result : String
  name : String
  parameters : List Parameter
  deriving DecidableEq

/-- A signature as code. -/
def Signature.code (s : Signature) : String :=
  s.result ++ " " ++ s.name ++ "(" ++ ", ".intercalate (s.parameters.map Parameter.code) ++ ")"

/-- The method gives nothing back. -/
def Signature.isVoid (s : Signature) : Bool := s.result == "void"

/-- A signature in an interface. -/
def Signature.declaration (s : Signature) : List Code.Line := Code.line (s.code ++ ";")

/-- A method of a class. -/
structure Method where
  modifiers : String
  signature : Signature
  body : List Code.Line

/-- A method as code. -/
def Method.code (m : Method) : List Code.Line :=
  Code.block (m.modifiers ++ " " ++ m.signature.code) m.body

end EntityScaffold
