import EntityScaffold.FileTree.Basic
import EntityScaffold.Package.Manifest
import EntityScaffold.Package.ZipFile
import EntityScaffold.Text.Quoted

/-!
# Packages

A package is an archive of files in the order of their paths. It is made from the files below a
directory or straight from texts by path, and appears at its place complete or not at all.

Model of `_write_zip`, `package_directory` and `package_files`.
-/

namespace EntityScaffold

/-- What a file holds: bytes, or the entries of an archive. -/
inductive FileBody where
  | bytes (data : ByteArray)
  | archive (entries : List ArchiveEntry)

namespace FileBody

/-- The bytes of a text. -/
def ofText (s : String) : FileBody := .bytes s.toUTF8

/-- The bytes of a file. -/
def data : FileBody → ByteArray
  | .bytes d => d
  | .archive entries => Zip.encode entries

end FileBody

/-- Why files are not staged or packaged. -/
inductive PackageError where
  /-- The path of a file would leave the directory it is meant for. -/
  | unsafePath (path : String)
  | noStagingDirectory (path : Path)
  /-- A generator gave up. -/
  | generator (message : String)
  | file (e : FileError)
  deriving DecidableEq

/-- The wording of a failure. -/
def PackageError.message : PackageError → String
  | .unsafePath path => "Refusing to stage unsafe artifact path: " ++ Text.quoted path
  | .noStagingDirectory path => "Staging directory does not exist: " ++ path.display
  | .generator message => message
  | .file e => e.message

/-- The failure was reported by the file system itself. -/
def PackageError.isSystem : PackageError → Bool
  | .file e => e.isSystem
  | _ => false

namespace Package

/-- The greatest number of bytes in the name of an entry. -/
def entryNameLimit : Nat := 65535

/-- An archive of entries, if it has room for their names. -/
def archiveOf (entries : List ArchiveEntry) : Except FileError FileBody :=
  if entries.any fun e => entryNameLimit < e.name.utf8ByteSize then .error .longEntry
  else .ok (.archive entries)

/-- Writes an archive to its place. -/
def writeArchive (t : FileTree FileBody) (destination : Path)
    (archive : Except FileError FileBody) : FileTree FileBody × Except PackageError Unit :=
  match t.buildAtomically destination archive with
  | (t', .ok ()) => (t', .ok ())
  | (t', .error e) => (t', .error (.file e))

/-- The entries for the files below a place. -/
def entriesBelow (t : FileTree FileBody) (place : Path) : List ArchiveEntry :=
  (t.filesBelow place).map fun f => .of f.1 f.2.data

/-- Packages every file below a directory. An archive has room for the name of any file that can
be there. -/
def ofDirectory (t : FileTree FileBody) (source destination : Path) :
    FileTree FileBody × Except PackageError Unit :=
  match t.present? source with
  | .error e => (t, .error (.file e))
  | .ok (some .directory) =>
    match t.walk source with
    | .error e => (t, .error (.file e))
    | .ok place => writeArchive t destination (.ok (.archive (entriesBelow t place)))
  | .ok _ => (t, .error (.noStagingDirectory source))

/-- Files in the order of their paths. -/
def ordered (files : List (String × String)) : List (String × String) :=
  files.mergeSort fun a b => a.1 ≤ b.1

/-- The first path, in order, that does not lead strictly below a directory. -/
def firstUnsafe? (files : List (String × String)) : Option String :=
  ((ordered files).find? fun f => (Path.relativeParts? f.1).isNone).map (·.1)

/-- Packages texts by path, no path twice, and gives the manifest. -/
def ofFiles (t : FileTree FileBody) (files : List (String × String)) (destination : Path) :
    FileTree FileBody × Except PackageError Manifest :=
  match firstUnsafe? files with
  | some path => (t, .error (.unsafePath path))
  | none =>
    let sorted := ordered files
    match writeArchive t destination (archiveOf (sorted.map fun f => .of f.1 f.2.toUTF8)) with
    | (t', .error e) => (t', .error e)
    | (t', .ok ()) => (t', .ok ⟨destination.name, sorted.map fun f => .of f.1 f.2⟩)

end Package

end EntityScaffold
