/-!
# Bit fields of a word

The fixed part of a message is laid out in big-endian words of at most sixty-four bits, which are
natural numbers here.  A field is given by the place of its lowest bit and its width; the part of it
that lies beyond the last bit of a word does not exist.
-/

namespace OpenFronthaul

-- Powers are those of the core library, whatever else is imported.
attribute [local instance (high)] instPowNat

/-- A field of a word. -/
structure BitField where
  /-- The place of the lowest bit. -/
  shift : Nat
  /-- The number of bits. -/
  width : Nat

namespace BitField

/-- The number of bits of a word. -/
def wordBits : Nat := 64

/-- The largest value of a field. -/
def mask (field : BitField) : Nat :=
  2 ^ field.width - 1

/-- The value of a field in a word. -/
def get (field : BitField) (word : Nat) : Nat :=
  word / 2 ^ field.shift % 2 ^ field.width

/-- The word with a field replaced; of the new value only those bits count that are within the
width of the field and within the word. -/
def put (field : BitField) (word value : Nat) : Nat :=
  word / 2 ^ (field.shift + field.width) * 2 ^ (field.shift + field.width)
    + value % 2 ^ field.width * 2 ^ field.shift % 2 ^ wordBits
    + word % 2 ^ field.shift

/-- Whether a value needs no more bits than the field has. -/
def fits (field : BitField) (value : Nat) : Bool :=
  decide (value ≤ field.mask)

theorem fits_iff {field : BitField} {value : Nat} :
    field.fits value = true ↔ value < 2 ^ field.width := by
  have := Nat.two_pow_pos field.width
  rw [fits, decide_eq_true_eq, mask]
  omega

end BitField

end OpenFronthaul
