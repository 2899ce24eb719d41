import EntityScaffold.Digest.Crc32
import EntityScaffold.Package.Entry

/-!
# Archives as bytes

The bytes of an archive in the ZIP format: a record for every entry, a directory that repeats
their heads, and an end that says where the directory is. Data is in the deflate format, in
blocks that hold it as it is.

* `Zip.number`: a number, least byte first; `number_length` gives its width.
* `Zip.encode`: the bytes of an archive.
-/

namespace EntityScaffold.Zip

/-- The lowest `width` bytes of a number, least first. -/
def number : Nat → Nat → List UInt8
  | 0, _ => []
  | width + 1, n => n.toUInt8 :: number width (n / 256)

theorem number_length (width n : Nat) : (number width n).length = width := by
  induction width generalizing n with
  | zero => rfl
  | succ width ih => simp [number, ih]

/-- The greatest number of bytes in a block. -/
def blockLimit : Nat := 65535

/-- A block of data as it is. -/
def block (last : Bool) (data : List UInt8) : List UInt8 :=
  (if last then 1 else 0) :: (number 2 data.length ++ number 2 (65535 - data.length) ++ data)

/-- Data in blocks. -/
def blocks (data : List UInt8) : List UInt8 :=
  if _h : data.length ≤ blockLimit then block true data
  else block false (data.take blockLimit) ++ blocks (data.drop blockLimit)
termination_by data.length
decreasing_by simp [blockLimit] at _h ⊢; omega

/-- The first of January 1980. -/
def date : Nat := 33

/-- Everybody may read and the owner may write. -/
def mode : Nat := 0o644

/-- Names with other characters than ASCII ones are marked as UTF-8. -/
def flags (name : String) : Nat := if name.toList.all fun c => c.toNat < 128 then 0 else 2048

/-- What the record of an entry and its line in the directory have in common. -/
def head (e : ArchiveEntry) (stored : List UInt8) : List UInt8 :=
  number 2 20 ++ number 2 (flags e.name) ++ number 2 8 ++ number 2 0 ++ number 2 date ++
    number 4 (Crc32.checksum e.data).toNat ++ number 4 stored.length ++ number 4 e.data.size ++
    number 2 e.name.utf8ByteSize ++ number 2 0

/-- The record of an entry. -/
def record (e : ArchiveEntry) : List UInt8 :=
  let stored := blocks e.data.toList
  number 4 0x04034b50 ++ head e stored ++ e.name.toUTF8.toList ++ stored

/-- The line of an entry in the directory. Its record starts at `offset`. -/
def directoryLine (offset : Nat) (e : ArchiveEntry) : List UInt8 :=
  number 4 0x02014b50 ++ number 2 (3 * 256 + 20) ++ head e (blocks e.data.toList) ++ number 2 0 ++
    number 2 0 ++ number 2 0 ++ number 4 (mode * 65536) ++ number 4 offset ++
    e.name.toUTF8.toList

/-- The directory of entries whose records start at `offset`. -/
def directory (offset : Nat) : List ArchiveEntry → List UInt8
  | [] => []
  | e :: rest => directoryLine offset e ++ directory (offset + (record e).length) rest

/-- The bytes of an archive. -/
def encode (es : List ArchiveEntry) : ByteArray :=
  let records := es.flatMap record
  let lines := directory 0 es
  let ending := number 4 0x06054b50 ++ number 2 0 ++ number 2 0 ++ number 2 es.length ++
    number 2 es.length ++ number 4 lines.length ++ number 4 records.length ++ number 2 0
  ⟨(records ++ lines ++ ending).toArray⟩

end EntityScaffold.Zip
