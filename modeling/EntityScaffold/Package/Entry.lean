/-!
# Archive entries

An archive is a list of files, each with its name and its bytes.
-/

namespace EntityScaffold

/-- A file in an archive. -/
structure ArchiveEntry where
  name : String
  data : ByteArray

namespace ArchiveEntry

/-- A file stored under a name; archives cut names at a null character. -/
def of (name : String) (data : ByteArray) : ArchiveEntry :=
  ⟨String.ofList (name.toList.takeWhile (· ≠ '\x00')), data⟩

end ArchiveEntry

end EntityScaffold
