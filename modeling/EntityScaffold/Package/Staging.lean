import EntityScaffold.Package.Archive

/-!
# Staging areas

Every job writes its files into a directory of its own, below a common root and named for the
job. The area records each file it has written; when a path is written again both records stay.

Model of `StagingArea`, `staging_name_for`, `package_name_for` and `_safe_relative_path`.
-/

namespace EntityScaffold

/-- What the names of staging directories and packages start with. -/
def stagingPrefix : String := "GeneratedCode_"

/-- The name of a job's staging directory. -/
def stagingName (job : String) : String := stagingPrefix ++ job

/-- The name of a job's package. -/
def packageName (job : String) : String := stagingPrefix ++ job ++ ".zip"

/-- A directory for the files of one job. -/
structure StagingArea where
  path : Path
  records : List FileRecord := []

namespace StagingArea

/-- The area of a job below a root. -/
def of (root : Path) (job : String) : Except FileError StagingArea :=
  let path := Path.ofText root (stagingName job)
  if FileTree.hasNull path then .error .nullByte else .ok { path := path.collapsed }

/-- Makes the directory. -/
def create (a : StagingArea) (t : FileTree FileBody) :
    FileTree FileBody × Except FileError Unit :=
  t.makeDirectories a.path

/-- Writes a file of the area and records it. -/
def write (a : StagingArea) (t : FileTree FileBody) (path text : String) :
    FileTree FileBody × Except PackageError (StagingArea × FileRecord) :=
  match Path.relativeParts? path with
  | none => (t, .error (.unsafePath path))
  | some parts =>
    match t.writeAtomically (a.path ++ parts) (.ofText text) with
    | (t', .error e) => (t', .error (.file e))
    | (t', .ok ()) =>
      let record := FileRecord.of ("/".intercalate parts) text
      (t', .ok ({ a with records := a.records ++ [record] }, record))

/-- The manifest of the recorded files, in the order of their paths. -/
def manifest (a : StagingArea) (packageName : String) : Manifest :=
  ⟨packageName, a.records.mergeSort fun x y => x.path ≤ y.path⟩

/-- Removes the directory and everything in it. -/
def remove (a : StagingArea) (t : FileTree FileBody) :
    FileTree FileBody × Except FileError Unit :=
  t.removeDirectory a.path

/-- An area as messages show it. -/
def display (a : StagingArea) : String :=
  s!"<StagingArea {a.path.display} ({a.records.length} files)>"

end StagingArea

end EntityScaffold
