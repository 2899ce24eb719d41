/-!
# Reading UTF-8 leniently

Bytes that came over the wire need not be a text. Every longest run of bytes that could begin a
character but does not is read as one replacement character, and so is every byte that can begin
none.
-/

namespace EntityScaffold.Text

/-- What the first byte of a character says: how many bytes follow, the bounds of the first of
them, and the bits of the character so far. -/
structure LeadByte where
  following : Nat
  least : Nat := 0x80
  most : Nat := 0xBF
  bits : Nat

/-- The meaning of a byte at the start of a character. -/
def leadByte? (b : Nat) : Option LeadByte :=
  if b < 0x80 then some { following := 0, bits := b }
  else if b < 0xC2 then none
  else if b < 0xE0 then some { following := 1, bits := b - 0xC0 }
  else if b = 0xE0 then some { following := 2, least := 0xA0, bits := 0 }
  else if b = 0xED then some { following := 2, most := 0x9F, bits := 0xD }
  else if b < 0xF0 then some { following := 2, bits := b - 0xE0 }
  else if b = 0xF0 then some { following := 3, least := 0x90, bits := 0 }
  else if b < 0xF4 then some { following := 3, bits := b - 0xF0 }
  else if b = 0xF4 then some { following := 3, most := 0x8F, bits := 4 }
  else none

/-- The character that stands for bytes that are none. -/
def replacement : Char := '\uFFFD'

/-- Reads the bytes that follow in a character: the character, and how many bytes were read. -/
def readFollowing (lead : LeadByte) (read : Nat) : List UInt8 → Char × Nat
  | [] => (if lead.following = 0 then Char.ofNat lead.bits else replacement, read)
  | b :: rest =>
    if lead.following = 0 then (Char.ofNat lead.bits, read)
    else if lead.least ≤ b.toNat ∧ b.toNat ≤ lead.most then
      readFollowing
        { following := lead.following - 1, bits := lead.bits * 64 + (b.toNat - 0x80) }
        (read + 1) rest
    else (replacement, read)

/-- The text of bytes. -/
def ofBytesLenient (bytes : List UInt8) : List Char :=
  match bytes with
  | [] => []
  | b :: rest =>
    match leadByte? b.toNat with
    | none => replacement :: ofBytesLenient rest
    | some lead =>
      let (c, read) := readFollowing lead 0 rest
      c :: ofBytesLenient (rest.drop read)
termination_by bytes.length
decreasing_by all_goals simp [List.length_drop]; try omega

end EntityScaffold.Text
