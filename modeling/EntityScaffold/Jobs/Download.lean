import EntityScaffold.Jobs.Pipeline

/-!
# Downloads

A package is fetched by the name of its file. Only plain file names are looked up, so that nothing
outside the package directory can be asked for.

Model of `package_path` and `download` of `JobPipeline`.
-/

namespace EntityScaffold

/-- Why a package is not delivered. -/
inductive DownloadError where
  | invalidName (name : String)
  | notFound (name : String)
  deriving DecidableEq

/-- The wording of an error. -/
def DownloadError.message : DownloadError → String
  | .invalidName name => "Invalid file name: " ++ Text.quoted name
  | .notFound name => s!"Package not found: {name}"

namespace Pipeline

/-- The path of a package. -/
def packagePath (p : Pipeline) (name : String) : Except DownloadError Path :=
  if Text.isSafeFileName name then
    let path := p.setup.packageDirectory ++ [name]
    match p.tree.read path with
    | .ok _ => .ok path
    | .error _ => .error (.notFound name)
  else .error (.invalidName name)

/-- What is in a package. The file is read after it was found, when there may be other files. -/
def download (p : Pipeline) (later : FileTree FileBody) (name : String) :
    Except DownloadError (Except FileError FileBody) :=
  (p.packagePath name).map later.read

end Pipeline

end EntityScaffold
