import EntityScaffold.Code.Context
import EntityScaffold.Code.Registration
import EntityScaffold.Code.Repository
import EntityScaffold.Code.Service
import EntityScaffold.Code.Tests

/-!
# The files of a request

Which files a request asks for, and in which order: table by table in the order of the request,
then those that exist once. `Request.artifacts` lists them all; two tables whose names give the
same class give files of the same path, and both are listed.

Model of `generate_all_for_table`, `generate_shared` and `iter_artifacts`.
-/

namespace EntityScaffold

/-- A generated file. -/
structure Artifact where
  kind : ArtifactKind
  typeName : String
  text : String
  deriving DecidableEq

namespace Artifact

/-- The path of a file in a package. -/
def path (a : Artifact) : String := a.kind.path a.typeName

/-- The file for a type. -/
def of (kind : ArtifactKind) (typeName : String) (file : Code.SourceFile) : Artifact :=
  ⟨kind, typeName, file.text⟩

end Artifact

namespace Request

/-- The files of one table. -/
def tableArtifacts (r : Request) (m : RelationshipMap) (t : Table) : List Artifact :=
  [.of .entity t.className (Entity.file r m t),
    .of .repositoryInterface (r.repositoryInterfaceName t) (Repository.interfaceFile r t),
    .of .repository (r.repositoryName t) (Repository.file r t)] ++
  onlyIf r.emitsServiceInterfaces
    (.of .serviceInterface (r.serviceInterfaceName t) (Service.interfaceFile r t)) ++
  onlyIf r.services (.of .service (r.serviceName t) (Service.file r t)) ++
  onlyIf r.unitTests
    (.of .repositoryTests (r.repositoryName t ++ "Tests") (Tests.repositoryFile r t)) ++
  onlyIf (r.unitTests && r.services)
    (.of .serviceTests (r.serviceName t ++ "Tests") (Tests.serviceFile r t))

/-- The files that exist once. -/
def sharedArtifacts (r : Request) (m : RelationshipMap) (tables : List Table) : List Artifact :=
  [.of .context r.contextName (Context.file r tables m),
    .of .repositoryInterface r.genericRepositoryInterface (Repository.genericInterfaceFile r),
    .of .repository r.genericRepository (Repository.genericFile r)] ++
  onlyIf r.diExtensions
    (.of .extensions "ServiceCollectionExtensions" (Registration.file r tables))

/-- Files by path: a path that occurs again keeps its place and takes the new text. -/
def filesByPath (artifacts : List Artifact) : List (String × String) :=
  collectMembers (artifacts.map fun a => (a.path, a.text))

/-- All files of a request. Files of one table that share a path are listed once, and so are the
shared files. -/
def artifacts (r : Request) : List (String × String) :=
  let m := r.relationships
  (r.validTables.flatMap fun t => filesByPath (r.tableArtifacts m t)) ++
    filesByPath (r.sharedArtifacts m r.validTables)

end Request

end EntityScaffold
