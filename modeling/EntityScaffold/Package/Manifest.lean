import EntityScaffold.Data.Value
import EntityScaffold.Digest.Sha256
import EntityScaffold.Text.Lines

/-!
# Manifests

A manifest lists the files of a package in the order of their paths, each with its size, its
number of lines and its digest, and gives the totals.

Model of `FileRecord`, `_record_for` and `PackageManifest`.
-/

namespace EntityScaffold

/-- What a manifest says of a file. -/
structure FileRecord where
  path : String
  bytes : Nat
  lines : Nat
  sha256 : String
  deriving DecidableEq

/-- The record of a text under a path. -/
def FileRecord.of (path text : String) : FileRecord :=
  ⟨path, text.utf8ByteSize, Text.countLines text, Sha256.hexDigest text.toUTF8⟩

@[simp] theorem FileRecord.path_of (path text : String) : (FileRecord.of path text).path = path :=
  rfl

@[simp] theorem FileRecord.bytes_of (path text : String) :
    (FileRecord.of path text).bytes = text.utf8ByteSize := rfl

@[simp] theorem FileRecord.lines_of (path text : String) :
    (FileRecord.of path text).lines = Text.countLines text := rfl

/-- A record as a document. -/
def FileRecord.toValue (r : FileRecord) : Value :=
  .ofMembers [("relative_path", .text r.path), ("size_bytes", .int r.bytes),
    ("line_count", .int r.lines), ("sha256", .text r.sha256)]

/-- The files of a package. -/
structure Manifest where
  packageName : String
  files : List FileRecord
  deriving DecidableEq

namespace Manifest

def totalFiles (m : Manifest) : Nat := m.files.length

def totalBytes (m : Manifest) : Nat := totalOf (·.bytes) m.files

def totalLines (m : Manifest) : Nat := totalOf (·.lines) m.files

/-- A manifest as a document. -/
def toValue (m : Manifest) : Value :=
  .ofMembers [("package_name", .text m.packageName), ("total_files", .int m.totalFiles),
    ("total_bytes", .int m.totalBytes), ("total_lines", .int m.totalLines),
    ("files", .list (m.files.map FileRecord.toValue))]

end Manifest

end EntityScaffold
