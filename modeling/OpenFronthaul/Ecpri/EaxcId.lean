import OpenFronthaul.Error

/-!
# Antenna-carrier ids

Sixteen bits of every fronthaul frame name the flow that it belongs to: a processing unit on the
distributed side, a band sector, a component carrier and an antenna of the radio unit.  How many
bits each part has is agreed between the two sides; the parts stand side by side, most significant
first.
-/

namespace OpenFronthaul

-- Powers are those of the core library, whatever else is imported.
attribute [local instance (high)] instPowNat

/-- The parts of an antenna-carrier id. -/
structure EaxcId where
  /-- Processing unit on the distributed side. -/
  unit : UInt8 := 0
  /-- Band sector. -/
  bandSector : UInt8 := 0
  /-- Component carrier. -/
  carrier : UInt8 := 0
  /-- Antenna of the radio unit. -/
  antenna : UInt8 := 0
deriving DecidableEq

/-- The width in bits of each part of an antenna-carrier id. -/
structure EaxcLayout where
  unitBits : UInt8 := 4
  bandSectorBits : UInt8 := 4
  carrierBits : UInt8 := 4
  antennaBits : UInt8 := 4
deriving DecidableEq

namespace EaxcLayout

/-- The bits that all parts need together. -/
def totalBits (layout : EaxcLayout) : Nat :=
  layout.unitBits.toNat + layout.bandSectorBits.toNat + layout.carrierBits.toNat
    + layout.antennaBits.toNat

/-- A layout is usable when its parts fit into sixteen bits. -/
def validate (layout : EaxcLayout) : Except LinkError Unit :=
  if 16 < layout.totalBits then throw (.idLayout layout.totalBits) else pure ()

/-- Put a part of the given width behind the parts that stand already. -/
def append (value : Nat) (part width : UInt8) : Nat :=
  value * 2 ^ width.toNat + part.toNat % 2 ^ width.toNat

/-- The wire id; of each part only the bits of its width count. -/
def compose (layout : EaxcLayout) (id : EaxcId) : UInt16 :=
  let value := append 0 id.unit layout.unitBits
  let value := append value id.bandSector layout.bandSectorBits
  let value := append value id.carrier layout.carrierBits
  UInt16.ofNat (append value id.antenna layout.antennaBits)

/-- The part of a wire id that starts at a place and has the given width. -/
def part (raw : UInt16) (shift : Nat) (width : UInt8) : UInt8 :=
  UInt8.ofNat (raw.toNat / 2 ^ shift % 2 ^ width.toNat)

/-- The parts of a wire id. -/
def decompose (layout : EaxcLayout) (raw : UInt16) : EaxcId :=
  let carrierShift := layout.antennaBits.toNat
  let sectorShift := carrierShift + layout.carrierBits.toNat
  let unitShift := sectorShift + layout.bandSectorBits.toNat
  { unit := part raw unitShift layout.unitBits
    bandSector := part raw sectorShift layout.bandSectorBits
    carrier := part raw carrierShift layout.carrierBits
    antenna := part raw 0 layout.antennaBits }

end EaxcLayout

end OpenFronthaul
