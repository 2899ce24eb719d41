import EntityScaffold.Text.Quoted

/-!
# CRC-32

The cyclic redundancy check that archives store with every entry: polynomial 0xEDB88320 in
reflected form, register and result complemented.
-/

namespace EntityScaffold.Crc32

/-- One step of the shift register. -/
def shift (r : UInt32) : UInt32 :=
  if r &&& 1 = 1 then (r >>> 1) ^^^ 0xEDB88320 else r >>> 1

/-- The register after a byte. -/
def feed (r : UInt32) (byte : UInt8) : UInt32 :=
  shift <| shift <| shift <| shift <| shift <| shift <| shift <| shift <| r ^^^ byte.toUInt32

/-- The checksum of a sequence of bytes. -/
def checksum (data : ByteArray) : UInt32 :=
  data.data.foldl feed 0xFFFFFFFF ^^^ 0xFFFFFFFF

/-- The checksum in eight hexadecimal digits. -/
def hexChecksum (data : ByteArray) : String :=
  String.ofList (Text.hexDigits 8 (checksum data).toNat)

end EntityScaffold.Crc32
