import OpenFronthaul.Compression
import OpenFronthaul.Direction
import OpenFronthaul.Numerology

/-!
# Sections

A section is one allocation of resource blocks and symbols.  This file has the section types, the
address of a section bucket, the ways of carrying the numerology in a section id, and the section
itself.
-/

namespace OpenFronthaul

/-- The kind of allocation that a message describes. -/
inductive SectionType where
  /-- Resources left unused. -/
  | unused
  /-- Most radio channels. -/
  | regular
  /-- Random access and mixed-numerology channels. -/
  | mixed
  /-- Scheduling of terminals. -/
  | scheduling
  /-- Channel information. -/
  | channelState
  /-- Licence-assisted access. -/
  | assistedAccess
deriving DecidableEq

namespace SectionType

/-- The wire code of a section type. -/
def code : SectionType → Nat
  | unused => 0
  | regular => 1
  | mixed => 3
  | scheduling => 5
  | channelState => 6
  | assistedAccess => 7

/-- The section type of a wire code. -/
def ofCode? : Nat → Option SectionType
  | 0 => some unused
  | 1 => some regular
  | 3 => some mixed
  | 5 => some scheduling
  | 6 => some channelState
  | 7 => some assistedAccess
  | _ => none

/-- The word for a section type in reports. -/
def name : SectionType → String
  | unused => "Unused"
  | regular => "Type1"
  | mixed => "Type3"
  | scheduling => "Type5"
  | channelState => "Type6"
  | assistedAccess => "Type7"

/-- Whether messages of this type can be written and read. -/
def isSupported : SectionType → Bool
  | regular | mixed => true
  | _ => false

/-- Bytes of the message header, its part for the type included. -/
def headerLength : SectionType → Nat
  | unused | mixed => 12
  | _ => 8

/-- Bytes of a section without its extensions. -/
def sectionLength : SectionType → Nat
  | mixed => 12
  | _ => 8

@[simp] theorem ofCode?_code (t : SectionType) : ofCode? t.code = some t := by
  cases t <;> rfl

end SectionType

/-- The address of a bucket of sections. -/
structure SectionKey where
  /-- Direction of the sections. -/
  direction : Direction
  /-- Component carrier. -/
  carrier : UInt8
  /-- Antenna of the radio unit. -/
  antenna : UInt8
  /-- Rotation context of the slot. -/
  context : UInt8
deriving DecidableEq

/-- The form of a bucket address in reports. -/
def SectionKey.describe (key : SectionKey) : String :=
  "SectionKey \x7b dir: " ++ key.direction.name ++ ", cc: " ++ toString key.carrier.toNat
    ++ ", eaxc: " ++ toString key.antenna.toNat ++ ", ctx: " ++ toString key.context.toNat
    ++ " \x7d"

/-- How the numerology of a section is carried in its id. -/
inductive IdTagging where
  /-- The id says nothing of the numerology. -/
  | untagged
  /-- The numerology stands in the given number of high bits of the twelve-bit id. -/
  | highBits (bits : UInt8)
deriving DecidableEq

/-- The form of a tagging in reports. -/
def IdTagging.describe : IdTagging → String
  | untagged => "Untagged"
  | highBits bits => "MuHighBits \x7b mu_bits: " ++ toString bits.toNat ++ " \x7d"

/-- Where the user data of a section lies in the buffer of one symbol. -/
structure IqPointer where
  /-- Start within the symbol buffer. -/
  offset : UInt32 := 0
  /-- Length of the data. -/
  length : UInt32 := 0
deriving DecidableEq

/-- No user data on any symbol. -/
def noPointers : Vector IqPointer 14 :=
  Vector.replicate 14 {}

/-- One allocation of radio resources.

A count of resource blocks above 255 cannot be carried on the wire; such a section, like one that
asks for all blocks, goes out under the sentinel for the whole carrier. -/
structure Section where
  /-- Type of the message that owns the section. -/
  type : SectionType := .regular
  /-- Section id without any numerology tag. -/
  id : UInt16 := 0
  /-- Every other resource block is used. -/
  alternate : Bool := false
  /-- Symbol number increment command. -/
  symbolIncrement : Bool := false
  /-- First resource block. -/
  startPrb : UInt16 := 0
  /-- Number of resource blocks. -/
  numPrb : UInt16 := 0
  /-- The section spans the whole carrier. -/
  allPrbs : Bool := false
  /-- First symbol. -/
  startSymbol : UInt8 := 0
  /-- Number of symbols. -/
  numSymbols : UInt8 := 0
  /-- Mask of resource elements. -/
  reMask : UInt16 := 0
  /-- Beam. -/
  beamId : UInt16 := 0
  /-- Frequency offset of a mixed section. -/
  frequencyOffset : Int := 0
  /-- Compression of the user data. -/
  compression : IqCompression := .none
  /-- Sample width of the user data. -/
  iqWidth : UInt8 := 0
  /-- Extensions follow the section. -/
  extended : Bool := false
  /-- First section made from an element of the resource-block map. -/
  elementBegin : Bool := false
  /-- Last section made from an element of the resource-block map. -/
  elementEnd : Bool := false
  /-- User data of each symbol. -/
  pointers : Vector IqPointer 14 := noPointers
deriving DecidableEq

namespace Section

instance : Inhabited Section := ⟨{}⟩

/-- Whether a section goes out under the sentinel for the whole carrier. -/
def usesSentinel (s : Section) : Bool :=
  s.allPrbs || 255 < s.numPrb.toNat

/-- Whether a section covers a resource block on a symbol. -/
def covers (s : Section) (symbol prb : Nat) : Bool :=
  (s.startSymbol.toNat ≤ symbol && symbol < s.startSymbol.toNat + s.numSymbols.toNat)
    && (s.allPrbs || (s.startPrb.toNat ≤ prb && prb < s.startPrb.toNat + s.numPrb.toNat))

end Section

end OpenFronthaul
