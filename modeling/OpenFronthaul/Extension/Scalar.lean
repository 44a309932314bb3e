import OpenFronthaul.Extension.Block

/-!
# Extensions of one value

A mask of antennas that a section is meant for, the regularization factor of interference
suppression, and the radio technology of a slot on a carrier that shares its spectrum in time.
-/

namespace OpenFronthaul

namespace AntennaMask

/-- The contents of the extension. -/
def encodeBody (mask : UInt16) : Bytes :=
  Bytes.ofNat 2 mask.toNat

/-- Read the contents of the extension. -/
def parseBody (body : Bytes) : Except Error UInt16 := do
  Extension.require (.body .antennaMask) 2 body
  return UInt16.ofNat (Extension.numberAt body 0 2)

end AntennaMask

namespace Regularization

/-- The contents of the extension, the factor in two's complement. -/
def encodeBody (factor : Int16) : Bytes :=
  Bytes.ofNat 2 factor.toUInt16.toNat

/-- Read the contents of the extension. -/
def parseBody (body : Bytes) : Except Error Int16 := do
  Extension.require (.body .regularization) 2 body
  return (UInt16.ofNat (Extension.numberAt body 0 2)).toInt16

end Regularization

/-- A radio technology. -/
inductive Technology where
  | lte
  | nr
deriving DecidableEq

namespace Technology

/-- The wire code of a technology. -/
def code : Technology → Nat
  | lte => 0
  | nr => 1

/-- The technology of a wire code. -/
def ofCode? : Nat → Option Technology
  | 0 => some lte
  | 1 => some nr
  | _ => none

/-- The contents of the extension. -/
def encodeBody (technology : Technology) : Bytes :=
  [UInt8.ofNat technology.code, 0]

/-- Read the contents of the extension. -/
def parseBody (body : Bytes) : Except Error Technology := do
  Extension.require (.body .spectrumSharing) 1 body
  match ofCode? (Extension.byteAt body 0) with
  | some technology => return technology
  | none => throw (.unknownTechnology (Extension.byteAt body 0))

end Technology

/-- The technology of each slot, repeated after the last one. -/
structure TechnologyPattern where
  /-- The technologies of one period. -/
  slots : List Technology
  nonempty : slots ≠ []
deriving DecidableEq

namespace TechnologyPattern

/-- The longest period. -/
def maxPeriod : Nat := 15

/-- A pattern of one to fifteen slots. -/
def create (slots : List Technology) : Except Error TechnologyPattern :=
  if h : slots = [] then throw (.technologyPeriod slots.length)
  else if maxPeriod < slots.length then throw (.technologyPeriod slots.length)
  else pure ⟨slots, h⟩

/-- Slots after which the pattern repeats. -/
def period (pattern : TechnologyPattern) : Nat :=
  pattern.slots.length

/-- The technology of a slot. -/
def technology (pattern : TechnologyPattern) (slot : Nat) : Technology :=
  pattern.slots.get ⟨slot % pattern.slots.length,
    Nat.mod_lt _ (List.length_pos_iff.mpr pattern.nonempty)⟩

end TechnologyPattern

end OpenFronthaul
