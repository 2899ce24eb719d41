import EntityScaffold.Text.Utf8

/-!
# Reading wide text

Where a text is laid out in units of two or of four bytes, characters of ASCII have bytes that are
zero, and other texts have none at their start. `Layout.ofBytes` tells by these zeros how bytes are
laid out, and `ofWideBytes?` reads units. A character beyond the first 65536 takes two units of two
bytes; half of such a pair is read as a replacement character.
-/

namespace EntityScaffold.Text

/-- How a text is laid out in bytes. -/
inductive Layout where
  /-- Units of one byte, as many as a character needs. -/
  | narrow
  /-- Units of two or of four bytes; of each, the first byte counts most or least. -/
  | wide (double : Bool) (bigEndian : Bool)
  deriving DecidableEq

/-- The layout that the zeros among the first bytes tell. -/
def Layout.ofBytes : List UInt8 → Layout
  | a :: b :: c :: d :: _ =>
    if a = 0 then .wide (b = 0) true
    else if b = 0 then .wide (c = 0 && d = 0) false
    else .narrow
  | [a, b] => if a = 0 then .wide false true else if b = 0 then .wide false false else .narrow
  | _ => .narrow

/-- The units that bytes make up, if none is left over. -/
def units? (double bigEndian : Bool) (bytes : List UInt8) : Option (List Nat) :=
  let number (bs : List UInt8) : Nat :=
    (if bigEndian then bs else bs.reverse).foldl (fun n b => n * 256 + b.toNat) 0
  match bytes with
  | [] => some []
  | a :: b :: rest =>
    if double then
      match rest with
      | c :: d :: rest => (units? double bigEndian rest).map (number [a, b, c, d] :: ·)
      | _ => none
    else (units? double bigEndian rest).map (number [a, b] :: ·)
  | [_] => none

/-- A unit that is the first half of a character. -/
def isHighHalf (n : Nat) : Bool := 0xD800 ≤ n && n < 0xDC00

/-- A unit that is the second half of a character. -/
def isLowHalf (n : Nat) : Bool := 0xDC00 ≤ n && n < 0xE000

/-- The characters of units, if there are such characters. -/
def ofUnits? : List Nat → Option (List Char)
  | high :: low :: rest =>
    if isHighHalf high && isLowHalf low then
      let c := Char.ofNat (0x10000 + (high - 0xD800) * 0x400 + (low - 0xDC00))
      (ofUnits? rest).map (c :: ·)
    else (single? high).bind fun c => (ofUnits? (low :: rest)).map (c :: ·)
  | [n] => (single? n).map ([·])
  | [] => some []
where
  /-- The character of one unit. -/
  single? (n : Nat) : Option Char :=
    if 0x110000 ≤ n then none
    else if isHighHalf n || isLowHalf n then some replacement
    else some (Char.ofNat n)

/-- The text of bytes in units of two or of four bytes, if there is one. -/
def ofWideBytes? (double bigEndian : Bool) (bytes : List UInt8) : Option (List Char) :=
  (units? double bigEndian bytes).bind ofUnits?

end EntityScaffold.Text
