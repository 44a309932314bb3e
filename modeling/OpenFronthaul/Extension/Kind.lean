/-!
# Kinds of section extensions

An extension is told by a type code of seven bits.  Its length is counted in words of four bytes,
in one byte, or in two for flexible beamforming weights.
-/

namespace OpenFronthaul

/-- The kinds of section extensions. -/
inductive ExtensionKind where
  | beamWeights
  | beamAttributes
  | precoding
  | modulationScaling
  | modulationSets
  | prbGroups
  | antennaMask
  | regularization
  | spectrumSharing
  | beamGroup
  | weightBundles
deriving DecidableEq

namespace ExtensionKind

/-- The type code of a kind. -/
def code : ExtensionKind → Nat
  | beamWeights => 1
  | beamAttributes => 2
  | precoding => 3
  | modulationScaling => 4
  | modulationSets => 5
  | prbGroups => 6
  | antennaMask => 7
  | regularization => 8
  | spectrumSharing => 9
  | beamGroup => 10
  | weightBundles => 11

/-- The kind of a type code. -/
def ofCode? : Nat → Option ExtensionKind
  | 1 => some beamWeights
  | 2 => some beamAttributes
  | 3 => some precoding
  | 4 => some modulationScaling
  | 5 => some modulationSets
  | 6 => some prbGroups
  | 7 => some antennaMask
  | 8 => some regularization
  | 9 => some spectrumSharing
  | 10 => some beamGroup
  | 11 => some weightBundles
  | _ => none

/-- The word for a kind in reports. -/
def name : ExtensionKind → String
  | beamWeights => "Bfw"
  | beamAttributes => "BfAttributes"
  | precoding => "Precoding"
  | modulationScaling => "ModComp"
  | modulationSets => "ModCompMulti"
  | prbGroups => "NonContigPrb"
  | antennaMask => "EaxcMask"
  | regularization => "Regularization"
  | spectrumSharing => "Dss"
  | beamGroup => "BeamGroup"
  | weightBundles => "FlexBfw"

/-- Bytes of the length field. -/
def lengthFieldSize : ExtensionKind → Nat
  | weightBundles => 2
  | _ => 1

@[simp] theorem ofCode?_code (k : ExtensionKind) : ofCode? k.code = some k := by
  cases k <;> rfl

theorem code_lt (k : ExtensionKind) : k.code < 128 := by
  cases k <;> decide

end ExtensionKind

end OpenFronthaul
