import OpenFronthaul.Message.Header

/-!
# Sections on the wire

A section is a word of 64 bits; a mixed section has four more bytes for its frequency offset.
`Section.encode` writes a section under the id that it has on the wire, and `WireSection.parse`
reads one.
-/

namespace OpenFronthaul

-- Powers are those of the core library, whatever else is imported.
attribute [local instance (high)] instPowNat

namespace SectionWord

/-- Section id. -/
def id : BitField := ⟨52, 12⟩
/-- Every other resource block. -/
def alternate : BitField := ⟨51, 1⟩
/-- Symbol number increment command. -/
def symbolIncrement : BitField := ⟨50, 1⟩
/-- First resource block. -/
def startPrb : BitField := ⟨40, 10⟩
/-- Number of resource blocks. -/
def numPrb : BitField := ⟨32, 8⟩
/-- Mask of resource elements. -/
def reMask : BitField := ⟨20, 12⟩
/-- Number of symbols. -/
def numSymbols : BitField := ⟨16, 4⟩
/-- Extensions follow. -/
def extended : BitField := ⟨15, 1⟩
/-- Beam. -/
def beamId : BitField := ⟨0, 15⟩

end SectionWord

namespace Section

/-- The number of resource blocks that is written; zero is the sentinel for the whole carrier. -/
def wireNumPrb (s : Section) : Nat :=
  if s.usesSentinel then 0 else s.numPrb.toNat

/-- The word of a section. -/
def word (s : Section) (wireId : Nat) (extended : Bool) : Nat :=
  let word := SectionWord.id.put 0 wireId
  let word := SectionWord.alternate.put word s.alternate.toNat
  let word := SectionWord.symbolIncrement.put word s.symbolIncrement.toNat
  let word := SectionWord.startPrb.put word s.startPrb.toNat
  let word := SectionWord.numPrb.put word s.wireNumPrb
  let word := SectionWord.reMask.put word s.reMask.toNat
  let word := SectionWord.numSymbols.put word s.numSymbols.toNat
  let word := SectionWord.extended.put word extended.toNat
  SectionWord.beamId.put word s.beamId.toNat

/-- The frequency offset of a mixed section: 24 bits in two's complement and a spare byte. -/
def encodeOffset (s : Section) : Except Error Bytes :=
  if s.frequencyOffset < -2 ^ (23 : Nat) ∨ 2 ^ (23 : Nat) ≤ s.frequencyOffset then
    throw (.outOfRange .frequencyOffset s.frequencyOffset)
  else pure ((Bits.ofInt 24 s.frequencyOffset).toBytes ++ [0])

/-- Write a section without its extensions. -/
def encode (s : Section) (type : SectionType) (wireId : Nat) (extended : Bool) :
    Except Error Bytes := do
  SectionWord.id.check .sectionId wireId
  SectionWord.startPrb.check .startPrb s.startPrb.toNat
  SectionWord.reMask.check .reMask s.reMask.toNat
  SectionWord.numSymbols.check .numSymbols s.numSymbols.toNat
  SectionWord.beamId.check .beamId s.beamId.toNat
  if s.numSymbols.toNat = 0 ∨ symbolsPerSlot < s.numSymbols.toNat then
    throw (.outOfRange .numSymbols s.numSymbols.toNat)
  let offset ← if type = .mixed then s.encodeOffset else pure []
  return Bytes.ofNat 8 (s.word wireId extended) ++ offset

end Section

/-- A section as it was read, without its extensions. -/
structure WireSection where
  /-- Section id with any numerology tag. -/
  wireId : UInt16
  alternate : Bool
  symbolIncrement : Bool
  startPrb : UInt16
  /-- Number of resource blocks; zero is the sentinel for the whole carrier. -/
  numPrb : UInt8
  reMask : UInt16
  numSymbols : UInt8
  extended : Bool
  beamId : UInt16
  frequencyOffset : Int
deriving DecidableEq

namespace WireSection

/-- Read the section at the start of some data. -/
def parse (data : Bytes) (type : SectionType) : Except Error WireSection := do
  if data.length < type.sectionLength then throw (.truncated .sectionBody)
  let word := Extension.numberAt data 0 8
  return { wireId := UInt16.ofNat (SectionWord.id.get word)
           alternate := SectionWord.alternate.get word = 1
           symbolIncrement := SectionWord.symbolIncrement.get word = 1
           startPrb := UInt16.ofNat (SectionWord.startPrb.get word)
           numPrb := UInt8.ofNat (SectionWord.numPrb.get word)
           reMask := UInt16.ofNat (SectionWord.reMask.get word)
           numSymbols := UInt8.ofNat (SectionWord.numSymbols.get word)
           extended := SectionWord.extended.get word = 1
           beamId := UInt16.ofNat (SectionWord.beamId.get word)
           frequencyOffset :=
             if type = .mixed then signExtend 24 (Extension.numberAt data 8 3) else 0 }

end WireSection

end OpenFronthaul
