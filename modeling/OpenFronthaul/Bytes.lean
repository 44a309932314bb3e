/-!
# Byte strings

Messages are lists of bytes.  Numbers are written most significant byte first (`ofNat`) and read
back the same way (`toNat`).
-/

namespace OpenFronthaul

-- Powers are those of the core library, whatever else is imported.
attribute [local instance (high)] instPowNat

/-- A string of bytes in wire order. -/
abbrev Bytes := List UInt8

namespace Bytes

/-- The low `count` bytes of a number, most significant first. -/
def ofNat : Nat → Nat → Bytes
  | 0, _ => []
  | count + 1, value => UInt8.ofNat (value / 256 ^ count) :: ofNat count value

/-- The number that a byte string spells, most significant byte first. -/
def toNat (bytes : Bytes) : Nat :=
  bytes.foldl (fun value byte => value * 256 + byte.toNat) 0

/-- A run of zero bytes. -/
def zeros (count : Nat) : Bytes :=
  List.replicate count 0

@[simp] theorem length_ofNat (count value : Nat) : (ofNat count value).length = count := by
  induction count with
  | zero => rfl
  | succ count ih => simp [ofNat, ih]

@[simp] theorem length_zeros (count : Nat) : (zeros count).length = count := by
  simp [zeros]

/-- The lower-case hexadecimal digit of a number below sixteen. -/
def hexDigit (n : Nat) : Char :=
  if n < 10 then Char.ofNat ('0'.toNat + n) else Char.ofNat ('a'.toNat + (n - 10))

/-- A byte as two hexadecimal digits. -/
def hexByte (byte : UInt8) : List Char :=
  [hexDigit (byte.toNat / 16), hexDigit (byte.toNat % 16)]

/-- A dump of a byte string: two digits a byte, with a blank between bytes. -/
def hexDump (bytes : Bytes) : String :=
  " ".intercalate (bytes.map fun byte => String.ofList (hexByte byte))

end Bytes

/-- A length rounded up: the bits of `align - 1` are cleared in the last length before the next
step.  For a power of two this is the least multiple that is not below the length. -/
def alignUp (length align : Nat) : Nat :=
  let last := length + align - 1
  last - (last &&& (align - 1))

theorem alignUp_two_pow (length n : Nat) :
    alignUp length (2 ^ n) = (length + 2 ^ n - 1) / 2 ^ n * 2 ^ n := by
  rw [alignUp, Nat.and_two_pow_sub_one_eq_mod, Nat.mul_comm]
  have := Nat.div_add_mod (length + 2 ^ n - 1) (2 ^ n)
  omega

end OpenFronthaul
