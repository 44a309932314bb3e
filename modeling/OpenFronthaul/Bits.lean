import OpenFronthaul.Bytes

/-!
# Bit strings

Fields narrower than a byte are packed back to back, most significant bit first.  A bit string is
a list of booleans; `Bits.ofNat` spells a number in a given width, `Bits.toNat` reads it back,
`Bits.toBytes` packs a bit string into bytes with zeros at the end, and `Bits.ofBytes` takes the
bytes apart.  `BitReader` takes fields off the front of a byte string and keeps count of what it
has taken; a field that is not there in full is not taken at all (`BitReader.next`).
-/

namespace OpenFronthaul

-- Powers are those of the core library, whatever else is imported.
attribute [local instance (high)] instPowNat

/-- A string of bits in wire order. -/
abbrev Bits := List Bool

namespace Bits

/-- The low `width` bits of a number, most significant first. -/
def ofNat : Nat → Nat → Bits
  | 0, _ => []
  | width + 1, value => value.testBit width :: ofNat width value

/-- The low `width` bits of a number in two's complement. -/
def ofInt (width : Nat) (value : Int) : Bits :=
  ofNat width (value % (2 ^ width : Nat)).toNat

/-- The number that a bit string spells. -/
def toNat (bits : Bits) : Nat :=
  bits.foldl (fun value bit => 2 * value + bit.toNat) 0

/-- The number that a bit string spells in two's complement. -/
def toInt (bits : Bits) : Int :=
  Int.bmod bits.toNat (2 ^ bits.length)

/-- The bits of a byte string. -/
def ofBytes (bytes : Bytes) : Bits :=
  bytes.flatMap fun byte => ofNat 8 byte.toNat

/-- The first eight bits as a byte; missing bits are zero. -/
def leadingByte (bits : Bits) : UInt8 :=
  UInt8.ofNat (toNat ((bits ++ List.replicate 8 false).take 8))

/-- The given number of bytes off the front of a bit string; missing bits are zero. -/
def takeBytes : Nat → Bits → Bytes
  | 0, _ => []
  | count + 1, bits => leadingByte (bits.take 8) :: takeBytes count (bits.drop 8)

/-- A bit string packed into bytes; the last byte is filled up with zeros. -/
def toBytes (bits : Bits) : Bytes :=
  takeBytes ((bits.length + 7) / 8) bits

/-- The first `width` bits and the rest, if there are so many. -/
def split? : Nat → Bits → Option (Bits × Bits)
  | 0, bits => some ([], bits)
  | _ + 1, [] => none
  | width + 1, bit :: bits => (split? width bits).map fun (front, rest) => (bit :: front, rest)

@[simp] theorem length_ofNat (width value : Nat) : (ofNat width value).length = width := by
  induction width with
  | zero => rfl
  | succ width ih => simp [ofNat, ih]

@[simp] theorem length_ofInt (width : Nat) (value : Int) : (ofInt width value).length = width :=
  length_ofNat ..

end Bits

/-- The value of the low `width` bits of a number read in two's complement. -/
def signExtend (width value : Nat) : Int :=
  Int.bmod value (2 ^ width)

/-- How some bits are read as a number. -/
inductive NumberForm where
  | unsigned (width : Nat)
  /-- Read in two's complement. -/
  | signed (width : Nat)
deriving DecidableEq

/-- The bits that are read. -/
def NumberForm.width : NumberForm → Nat
  | unsigned width => width
  | signed width => width

/-- A reader at some bit of a byte string. -/
structure BitReader where
  /-- The bits that are still to be read. -/
  rest : Bits
  /-- The number of bits read so far. -/
  position : Nat := 0

namespace BitReader

/-- A reader at the first bit of a byte string. -/
def ofBytes (bytes : Bytes) : BitReader where
  rest := Bits.ofBytes bytes

/-- The next `width` bits, if there are so many. -/
def take? (reader : BitReader) (width : Nat) : Option (Bits × BitReader) :=
  (Bits.split? width reader.rest).map fun (front, rest) =>
    (front, ⟨rest, reader.position + width⟩)

/-- The next `width` bits as a number. -/
def read? (reader : BitReader) (width : Nat) : Option (Nat × BitReader) :=
  (reader.take? width).map fun (bits, reader) => (bits.toNat, reader)

/-- The next `width` bits as a number in two's complement. -/
def readSigned? (reader : BitReader) (width : Nat) : Option (Int × BitReader) :=
  (reader.take? width).map fun (bits, reader) => (bits.toInt, reader)

/-- The next number in some form; a reader in front of too few bits stays where it is. -/
def next (reader : BitReader) (form : NumberForm) : Option Int × BitReader :=
  let read : Option (Int × BitReader) :=
    match form with
    | .unsigned width => (reader.read? width).map fun (value, reader) => (value, reader)
    | .signed width => reader.readSigned? width
  match read with
  | some (value, after) => (some value, after)
  | none => (none, reader)

/-- Bytes touched so far; a byte read in part counts in full. -/
def bytesConsumed (reader : BitReader) : Nat :=
  (reader.position + 7) / 8

end BitReader

end OpenFronthaul
