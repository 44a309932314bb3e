/-!
# Compression of samples and weights

User data and beamforming weights travel compressed by one of a few methods, with a sample width
of one to sixteen bits.  A width of sixteen is carried as zero in its four-bit field.
-/

namespace OpenFronthaul

/-- The compression method of user data samples. -/
inductive IqCompression where
  | none
  | blockFloatingPoint
  | blockScaling
  | muLaw
  | modulation
deriving DecidableEq

namespace IqCompression

/-- The wire code of a method. -/
def code : IqCompression → Nat
  | none => 0
  | blockFloatingPoint => 1
  | blockScaling => 2
  | muLaw => 3
  | modulation => 4

/-- The method of a wire code. -/
def ofCode? : Nat → Option IqCompression
  | 0 => some none
  | 1 => some blockFloatingPoint
  | 2 => some blockScaling
  | 3 => some muLaw
  | 4 => some modulation
  | _ => Option.none

@[simp] theorem ofCode?_code (m : IqCompression) : ofCode? m.code = some m := by
  cases m <;> rfl

theorem code_lt (m : IqCompression) : m.code < 16 := by
  cases m <;> decide

end IqCompression

/-- The compression method of beamforming weights. -/
inductive WeightCompression where
  | none
  | blockFloatingPoint
  | blockScaling
  | muLaw
  | beamspace
deriving DecidableEq

namespace WeightCompression

/-- The wire code of a method. -/
def code : WeightCompression → Nat
  | none => 0
  | blockFloatingPoint => 1
  | blockScaling => 2
  | muLaw => 3
  | beamspace => 4

/-- The method of a wire code. -/
def ofCode? : Nat → Option WeightCompression
  | 0 => some none
  | 1 => some blockFloatingPoint
  | 2 => some blockScaling
  | 3 => some muLaw
  | 4 => some beamspace
  | _ => Option.none

/-- The word for a method in reports. -/
def name : WeightCompression → String
  | none => "None"
  | blockFloatingPoint => "BlockFloatingPoint"
  | blockScaling => "BlockScaling"
  | muLaw => "ULaw"
  | beamspace => "Beamspace"

/-- Whether weights of this method can be packed and unpacked. -/
def isPackable : WeightCompression → Bool
  | none | blockFloatingPoint => true
  | _ => false

@[simp] theorem ofCode?_code (m : WeightCompression) : ofCode? m.code = some m := by
  cases m <;> rfl

theorem code_lt (m : WeightCompression) : m.code < 16 := by
  cases m <;> decide

end WeightCompression

namespace SampleWidth

/-- The four-bit wire value of a sample width; sixteen and more bits are carried as zero. -/
def toWire (width : UInt8) : Nat :=
  if 16 ≤ width.toNat then 0 else width.toNat

/-- The sample width of a four-bit wire value, of which only the low four bits count. -/
def ofWire (value : Nat) : UInt8 :=
  if value % 16 = 0 then 16 else UInt8.ofNat (value % 16)

theorem toWire_lt (width : UInt8) : toWire width < 16 := by
  unfold toWire
  split <;> omega

/-- A width of one to sixteen bits survives its trip through the wire value. -/
theorem ofWire_toWire {width : UInt8} (hpos : 1 ≤ width.toNat) (hle : width.toNat ≤ 16) :
    ofWire (toWire width) = width := by
  unfold toWire ofWire
  apply UInt8.toNat_inj.mp
  split
  · simp
    omega
  · rw [Nat.mod_eq_of_lt (by omega), if_neg (by omega)]
    simp

end SampleWidth

end OpenFronthaul
