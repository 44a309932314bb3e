import OpenFronthaul.Extension.Block

/-!
# Beam attributes and beam groups

`BeamAttributes` describes a beam by its pointing and width, each with a number of bits of its own;
`BeamGroup` spreads beams over further antennas.
-/

namespace OpenFronthaul

-- Powers are those of the core library, whatever else is imported.
attribute [local instance (high)] instPowNat

/-- A parameter of a beam with the code of its width: zero leaves the parameter out, any other code
stands for one bit more than it says. -/
structure BeamParameter where
  widthCode : UInt8 := 0
  value : UInt8 := 0
deriving DecidableEq

namespace BeamParameter

/-- Bits of the parameter with a width code. -/
def bitsOfCode (code : Nat) : Nat :=
  if code = 0 then 0 else code + 1

/-- Bits of a parameter. -/
def bits (p : BeamParameter) : Nat :=
  bitsOfCode p.widthCode.toNat

/-- Refuse a width code of more than three bits, and a value of more bits than the code says. -/
def check (p : BeamParameter) : Except Error Unit :=
  if 7 < p.widthCode.toNat then throw (.tooWide .attributeWidth p.widthCode.toNat 3)
  else if 2 ^ p.bits ≤ p.value.toNat then throw (.attributeTooWide p.value.toNat p.bits)
  else pure ()

end BeamParameter

/-- Attributes of a beam. -/
structure BeamAttributes where
  /-- Azimuth pointing. -/
  azimuth : BeamParameter := {}
  /-- Zenith pointing. -/
  zenith : BeamParameter := {}
  /-- Azimuth beam width. -/
  azimuthWidth : BeamParameter := {}
  /-- Zenith beam width. -/
  zenithWidth : BeamParameter := {}
  /-- Suppression of azimuth side lobes. -/
  azimuthSidelobe : UInt8 := 0
  /-- Suppression of zenith side lobes. -/
  zenithSidelobe : UInt8 := 0
deriving DecidableEq

namespace BeamAttributes

/-- The parameters in wire order. -/
def parameters (a : BeamAttributes) : List BeamParameter :=
  [a.azimuth, a.zenith, a.azimuthWidth, a.zenithWidth]

/-- Two codes of three bits in one byte. -/
def codePair (high low : UInt8) : UInt8 :=
  UInt8.ofNat (high.toNat * 8 + low.toNat)

/-- The bits of the parameters. -/
def bits (a : BeamAttributes) : Bits :=
  a.parameters.flatMap fun p => Bits.ofNat p.bits p.value.toNat

/-- The contents of the extension. -/
def encodeBody (a : BeamAttributes) : Except Error Bytes := do
  a.parameters.forM BeamParameter.check
  if 7 < a.azimuthSidelobe.toNat ∨ 7 < a.zenithSidelobe.toNat then throw .sidelobeTooWide
  return [codePair a.azimuth.widthCode a.zenith.widthCode,
      codePair a.azimuthWidth.widthCode a.zenithWidth.widthCode]
    ++ a.bits.toBytes ++ [codePair a.azimuthSidelobe a.zenithSidelobe]

/-- The next parameter, with the width that its code says. -/
def readParameter (code : Nat) (reader : BitReader) :
    Except Error (BeamParameter × BitReader) :=
  match reader.read? (BeamParameter.bitsOfCode code) with
  | some (value, reader) => pure (⟨UInt8.ofNat code, UInt8.ofNat value⟩, reader)
  | none => throw (.truncated .attributes)

/-- Read the contents of the extension, with the number of bytes that they take. -/
def parseBody (body : Bytes) : Except Error (BeamAttributes × Nat) := do
  Extension.require (.body .beamAttributes) 2 body
  let high (index : Nat) : Nat := Extension.byteAt body index / 8 % 8
  let low (index : Nat) : Nat := Extension.byteAt body index % 8
  let (azimuth, reader) ← readParameter (high 0) (.ofBytes (body.drop 2))
  let (zenith, reader) ← readParameter (low 0) reader
  let (azimuthWidth, reader) ← readParameter (high 1) reader
  let (zenithWidth, reader) ← readParameter (low 1) reader
  let sidelobe := 2 + reader.bytesConsumed
  Extension.require .sidelobe (sidelobe + 1) body
  return ({ azimuth, zenith, azimuthWidth, zenithWidth
            azimuthSidelobe := UInt8.ofNat (high sidelobe)
            zenithSidelobe := UInt8.ofNat (low sidelobe) }, sidelobe + 1)

end BeamAttributes

/-- How beams are spread over the antennas of a group. -/
inductive BeamGroupType where
  /-- The same beam on every antenna. -/
  | common
  /-- Consecutive beams. -/
  | matrix
  /-- A list of beams. -/
  | vectorList
deriving DecidableEq

namespace BeamGroupType

/-- The wire code of a group type. -/
def code : BeamGroupType → Nat
  | common => 0
  | matrix => 1
  | vectorList => 2

/-- The group type of a wire code. -/
def ofCode? : Nat → Option BeamGroupType
  | 0 => some common
  | 1 => some matrix
  | 2 => some vectorList
  | _ => none

end BeamGroupType

/-- Beams of further antennas beside the one that the message addresses. -/
structure BeamGroup where
  /-- How the beams are given. -/
  type : BeamGroupType := .common
  /-- Number of further antennas. -/
  antennas : UInt8 := 0
  /-- The beams of the further antennas, for a list of beams only. -/
  beams : List UInt16 := []
deriving DecidableEq

namespace BeamGroup

/-- The contents of the extension. -/
def encodeBody (g : BeamGroup) : Except Error Bytes := do
  if 0x3f < g.antennas.toNat then throw (.tooWide .numAntennas g.antennas.toNat 6)
  let head := UInt8.ofNat (g.type.code * 64 + g.antennas.toNat)
  match g.type with
  | .vectorList =>
    if g.beams.length ≠ g.antennas.toNat then
      throw (.groupBeamCount g.beams.length g.antennas.toNat)
    return head :: (← Extension.encodeBeams g.beams)
  | .common | .matrix =>
    if !g.beams.isEmpty then throw .beamsWithoutList
    return [head, 0]

/-- Read the contents of the extension, with the number of bytes that they take. -/
def parseBody (body : Bytes) : Except Error (BeamGroup × Nat) := do
  Extension.require (.body .beamGroup) 2 body
  let head := Extension.byteAt body 0
  let some type := BeamGroupType.ofCode? (head / 64) | throw (.unknownGroupType (head / 64))
  let antennas := head % 64
  match type with
  | .vectorList =>
    let length := 1 + antennas * 2
    Extension.require .groupBeams length body
    return (⟨type, UInt8.ofNat antennas, Extension.beamsAt antennas (body.drop 1)⟩, length)
  | .common | .matrix => return (⟨type, UInt8.ofNat antennas, []⟩, 2)

end BeamGroup

end OpenFronthaul
