import EntityScaffold.Schema.Relationship

/-!
# Names and places of generated types

Every generated file has a kind, which fixes its directory and its namespace. The names of
repositories and services are made from the class name of a table and the naming options of the
request.

Model of what `TemplateGenerator` makes of its request: `_namespace`, `class_name`,
`repository_interface_name`, `repository_class_name`, `service_interface_name`, `service_class_name`
and `_emits_service_interfaces`.
-/

namespace EntityScaffold

/-- The kinds of generated files. -/
inductive ArtifactKind where
  | entity
  | context
  | repositoryInterface
  | repository
  | serviceInterface
  | service
  | repositoryTests
  | serviceTests
  | extensions
  deriving DecidableEq

namespace ArtifactKind

/-- The directory of a kind, as the parts of its path. -/
def directory : ArtifactKind → List String
  | .entity => ["Entities"]
  | .context => ["Data"]
  | .repositoryInterface => ["Repositories", "Interfaces"]
  | .repository => ["Repositories", "Implementations"]
  | .serviceInterface => ["Services", "Interfaces"]
  | .service => ["Services", "Implementations"]
  | .repositoryTests => ["Tests", "Repositories"]
  | .serviceTests => ["Tests", "Services"]
  | .extensions => ["Extensions"]

/-- The path of the file for a type. -/
def path (kind : ArtifactKind) (typeName : String) : String :=
  "/".intercalate kind.directory ++ "/" ++ typeName ++ ".cs"

end ArtifactKind

namespace Request

/-- The namespace of a kind of files. -/
def home (r : Request) (kind : ArtifactKind) : String :=
  r.rootNamespace ++ "." ++ ".".intercalate kind.directory

/-- The repository that the table repositories extend. -/
def genericRepository (r : Request) : String :=
  if r.naming.repositoryClassSuffix.isEmpty then "Repository" else r.naming.repositoryClassSuffix

/-- The interface of the generic repository. -/
def genericRepositoryInterface (r : Request) : String :=
  r.naming.repositoryInterfacePrefix ++ r.genericRepository

def repositoryName (r : Request) (t : Table) : String :=
  t.className ++ r.naming.repositoryClassSuffix

def repositoryInterfaceName (r : Request) (t : Table) : String :=
  r.naming.repositoryInterfacePrefix ++ r.repositoryName t

def serviceName (r : Request) (t : Table) : String := t.className ++ r.naming.serviceClassSuffix

def serviceInterfaceName (r : Request) (t : Table) : String :=
  r.naming.serviceInterfacePrefix ++ r.serviceName t

/-- Services have interfaces: both are switched on. -/
def emitsServiceInterfaces (r : Request) : Bool := r.services && r.serviceInterfaces

end Request

end EntityScaffold
