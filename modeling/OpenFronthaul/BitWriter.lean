import OpenFronthaul.Bits

/-!
# Writing bits

A writer packs numbers into bytes, most significant bit first.  Bits that do not fill a byte yet
wait at the low end of a 64-bit word: a number is shifted in behind them, and then the whole bytes
are moved out of the word (`drain`).  What is packed is a number of 32 bits, of which the low bits
are kept (`PackedNumber`).
-/

namespace OpenFronthaul

-- Powers are those of the core library, whatever else is imported.
attribute [local instance (high)] instPowNat

/-- A number to be packed, and the bits that it is given. -/
inductive PackedNumber where
  | unsigned (value : UInt32) (width : Nat)
  /-- Written in two's complement. -/
  | signed (value : Int32) (width : Nat)
deriving DecidableEq

namespace PackedNumber

/-- The number itself. -/
def value : PackedNumber → Int
  | unsigned value _ => value.toNat
  | signed value _ => value.toInt

/-- The bits that the number is given. -/
def width : PackedNumber → Nat
  | unsigned _ width => width
  | signed _ width => width

end PackedNumber

namespace BitWriter

/-- The low bits of a word of 32 bits. -/
def lowMask (width : Nat) : UInt32 :=
  if width = 32 then 0xffffffff else (1 <<< UInt32.ofNat width) - 1

/-- The low bits of a word of 64 bits. -/
def pendingMask (pending : Nat) : UInt64 :=
  (1 <<< UInt64.ofNat pending) - 1

/-- Move whole bytes from the pending bits of a word to the end of a byte string; the result is the
byte string and the number of bits that are still pending. -/
def drain (bytes : Bytes) (word : UInt64) (pending : Nat) : Bytes × Nat :=
  if 8 ≤ pending then
    drain (bytes ++ [(word >>> UInt64.ofNat (pending - 8)).toUInt8]) word (pending - 8)
  else (bytes, pending)
termination_by pending

theorem drain_lt (bytes : Bytes) (word : UInt64) (pending : Nat) :
    (drain bytes word pending).2 < 8 := by
  fun_induction drain bytes word pending with
  | case1 _ _ _ ih => exact ih
  | case2 _ _ h => exact Nat.lt_of_not_le h

theorem toNat_lowMask {width : Nat} (h : width ≤ 32) :
    (lowMask width).toNat = 2 ^ width - 1 := by
  rw [lowMask]
  split
  · next hfull =>
    rw [hfull]
    rfl
  · next hshort =>
    have hlt : width < 32 := Nat.lt_of_le_of_ne h hshort
    have hpow : 2 ^ width < 2 ^ 32 := Nat.pow_lt_pow_right (by decide) hlt
    have hbit : (1 <<< UInt32.ofNat width : UInt32).toNat = 2 ^ width := by
      rw [UInt32.toNat_shiftLeft, UInt32.toNat_ofNat', Nat.mod_mod_of_dvd _ (by decide),
        Nat.mod_eq_of_lt hlt, UInt32.toNat_one, Nat.one_shiftLeft, Nat.mod_eq_of_lt hpow]
    have hle : (1 : UInt32) ≤ 1 <<< UInt32.ofNat width := by
      rw [UInt32.le_iff_toNat_le, hbit]
      exact Nat.two_pow_pos width
    rw [UInt32.toNat_sub_of_le _ _ hle, hbit, UInt32.toNat_one]

theorem toNat_and_lowMask (value : UInt32) {width : Nat} (h : width ≤ 32) :
    (value &&& lowMask width).toNat = value.toNat % 2 ^ width := by
  rw [UInt32.toNat_and, toNat_lowMask h, Nat.and_two_pow_sub_one_eq_mod]

theorem toNat_pendingMask {pending : Nat} (h : pending < 64) :
    (pendingMask pending).toNat = 2 ^ pending - 1 := by
  have hpow : 2 ^ pending < 2 ^ 64 := Nat.pow_lt_pow_right (by decide) h
  have hbit : (1 <<< UInt64.ofNat pending : UInt64).toNat = 2 ^ pending := by
    rw [UInt64.toNat_shiftLeft, UInt64.toNat_ofNat', Nat.mod_mod_of_dvd _ (by decide),
      Nat.mod_eq_of_lt h, UInt64.toNat_one, Nat.one_shiftLeft, Nat.mod_eq_of_lt hpow]
  have hle : (1 : UInt64) ≤ 1 <<< UInt64.ofNat pending := by
    rw [UInt64.le_iff_toNat_le, hbit]
    exact Nat.two_pow_pos pending
  rw [pendingMask, UInt64.toNat_sub_of_le _ _ hle, hbit, UInt64.toNat_one]

theorem toNat_and_pendingMask (word : UInt64) {pending : Nat} (h : pending < 64) :
    (word &&& pendingMask pending).toNat = word.toNat % 2 ^ pending := by
  rw [UInt64.toNat_and, toNat_pendingMask h, Nat.and_two_pow_sub_one_eq_mod]

theorem toNat_and_pendingMask_lt (word : UInt64) {pending : Nat} (h : pending < 8) :
    (word &&& pendingMask pending).toNat < 2 ^ pending := by
  rw [toNat_and_pendingMask word (by omega)]
  exact Nat.mod_lt _ (Nat.two_pow_pos _)

end BitWriter

/-- A writer behind some bits. -/
structure BitWriter where
  /-- The bytes that are full. -/
  bytes : Bytes := []
  /-- The bits behind them, as a number. -/
  word : UInt64 := 0
  /-- The number of these bits. -/
  pending : Nat := 0
  pending_lt : pending < 8 := by decide
  word_lt : word.toNat < 2 ^ pending := by decide

namespace BitWriter

/-- Append the low bits of a number. -/
def write (writer : BitWriter) (value : UInt32) (width : Nat) : BitWriter :=
  if width = 0 then writer
  else
    let word := writer.word <<< UInt64.ofNat width ||| (value &&& lowMask width).toUInt64
    let drained := drain writer.bytes word (writer.pending + width)
    { bytes := drained.1
      word := word &&& pendingMask drained.2
      pending := drained.2
      pending_lt := drain_lt ..
      word_lt := toNat_and_pendingMask_lt _ (drain_lt ..) }

/-- Append the low bits of a number in two's complement. -/
def writeSigned (writer : BitWriter) (value : Int32) (width : Nat) : BitWriter :=
  writer.write value.toUInt32 width

/-- Append a number. -/
def put (writer : BitWriter) : PackedNumber → BitWriter
  | .unsigned value width => writer.write value width
  | .signed value width => writer.writeSigned value width

/-- The number of bits written so far. -/
def bitLength (writer : BitWriter) : Nat :=
  writer.bytes.length * 8 + writer.pending

/-- The packed bytes; the last one is filled up with zeros. -/
def finish (writer : BitWriter) : Bytes :=
  if 0 < writer.pending then (writer.write 0 (8 - writer.pending)).bytes else writer.bytes

end BitWriter

end OpenFronthaul
