import OpenFronthaul.Message.Basic

/-!
# Message headers on the wire

The header starts with a word of 32 bits, the number of sections and their type.  What follows
depends on the type: the compression of the user data for regular sections, and in front of it the
timing of the numerology for mixed ones.  `MessageHeader.encode` writes a header and
`MessageHeader.parse` reads one.
-/

namespace OpenFronthaul

/-- The payload version of every message. -/
def payloadVersion : Nat := 1

namespace CommonWord

/-- Direction of the user data. -/
def direction : BitField := ⟨31, 1⟩
/-- Payload version. -/
def version : BitField := ⟨28, 3⟩
/-- Filter of the channel. -/
def filterIndex : BitField := ⟨24, 4⟩
/-- Frame. -/
def frame : BitField := ⟨16, 8⟩
/-- Subframe. -/
def subframe : BitField := ⟨12, 4⟩
/-- Slot within the subframe. -/
def slot : BitField := ⟨6, 6⟩
/-- First symbol. -/
def startSymbol : BitField := ⟨0, 6⟩

end CommonWord

namespace CompressionByte

/-- Sample width. -/
def width : BitField := ⟨4, 4⟩
/-- Compression method. -/
def method : BitField := ⟨0, 4⟩

/-- The byte for a compression method and a sample width. -/
def encode (compression : IqCompression) (iqWidth : UInt8) : UInt8 :=
  UInt8.ofNat (method.put (width.put 0 (SampleWidth.toWire iqWidth)) compression.code)

/-- The compression method and the sample width of a byte. -/
def parse (byte : Nat) : Except Error (IqCompression × UInt8) :=
  match IqCompression.ofCode? (method.get byte) with
  | some compression => pure (compression, SampleWidth.ofWire (width.get byte))
  | none => throw (.unknownCompression (method.get byte))

end CompressionByte

namespace FrameByte

/-- Code of the transform size. -/
def fftSize : BitField := ⟨4, 4⟩
/-- Code of the subcarrier spacing. -/
def spacing : BitField := ⟨0, 4⟩

end FrameByte

/-- Refuse a value that does not fit its field. -/
def BitField.check (field : BitField) (name : WireField) (value : Nat) : Except Error Unit :=
  if field.fits value then pure () else throw (.outOfRange name value)

namespace MessageHeader

/-- The first word of a header. -/
def commonWord (h : MessageHeader) (direction : Direction) : Nat :=
  let word := CommonWord.direction.put 0 direction.bit
  let word := CommonWord.version.put word payloadVersion
  let word := CommonWord.filterIndex.put word h.filterIndex.toNat
  let word := CommonWord.frame.put word h.frame.toNat
  let word := CommonWord.subframe.put word h.subframe.toNat
  let word := CommonWord.slot.put word h.slot.toNat
  CommonWord.startSymbol.put word h.startSymbol.toNat

/-- The part of a header that depends on the type of the sections. -/
def encodeTypePart (h : MessageHeader) (type : SectionType) : Except Error Bytes :=
  let compression := CompressionByte.encode h.compression h.iqWidth
  match type with
  | .regular => pure [compression, 0]
  | .mixed =>
    let frame := FrameByte.spacing.put (FrameByte.fftSize.put 0 h.fftSize.toNat) h.spacing.toNat
    pure (Bytes.ofNat 2 h.timeOffset.toNat ++ [UInt8.ofNat frame]
      ++ Bytes.ofNat 2 h.cyclicPrefix.toNat ++ [compression])
  | other => throw (.sectionTypeUnsupported other)

/-- Write the header of a message with the given number of sections. -/
def encode (h : MessageHeader) (direction : Direction) (type : SectionType) (sections : Nat) :
    Except Error Bytes := do
  CommonWord.filterIndex.check .filterIndex h.filterIndex.toNat
  CommonWord.subframe.check .subframe h.subframe.toNat
  CommonWord.slot.check .slot h.slot.toNat
  CommonWord.startSymbol.check .startSymbol h.startSymbol.toNat
  return Bytes.ofNat 4 (h.commonWord direction)
    ++ [UInt8.ofNat sections, UInt8.ofNat type.code] ++ (← h.encodeTypePart type)

/-- A header as it was read. -/
structure Parsed where
  /-- Direction of the user data. -/
  direction : Direction
  /-- The header. -/
  header : MessageHeader
  /-- Declared number of sections. -/
  sections : Nat
  /-- Type of the sections. -/
  type : SectionType
deriving DecidableEq

/-- Read the part of a header that depends on the type of the sections. -/
def parseTypePart (h : MessageHeader) (type : SectionType) (data : Bytes) :
    Except Error MessageHeader := do
  if type = .mixed then
    if data.length < 6 then throw (.truncated (.typeHeader .mixed))
    let frame := Extension.byteAt data 2
    let (compression, iqWidth) ← CompressionByte.parse (Extension.byteAt data 5)
    return { h with
      timeOffset := UInt16.ofNat (Extension.numberAt data 0 2)
      fftSize := UInt8.ofNat (FrameByte.fftSize.get frame)
      spacing := UInt8.ofNat (FrameByte.spacing.get frame)
      cyclicPrefix := UInt16.ofNat (Extension.numberAt data 3 2)
      compression, iqWidth }
  else
    if data.length < 2 then throw (.truncated (.typeHeader .regular))
    let (compression, iqWidth) ← CompressionByte.parse (Extension.byteAt data 0)
    return { h with compression, iqWidth }

/-- Read the header at the start of a message; what follows it starts behind the header length of
its section type. -/
def parse (data : Bytes) : Except Error Parsed := do
  if data.length < 6 then throw (.truncated .commonHeader)
  let word := Extension.numberAt data 0 4
  let code := Extension.byteAt data 5
  if CommonWord.version.get word ≠ payloadVersion then
    throw (.payloadVersion (CommonWord.version.get word))
  let some type := SectionType.ofCode? code | throw (.unknownSectionType code)
  if !type.isSupported then throw (.sectionTypeUnsupported type)
  let common : MessageHeader :=
    { filterIndex := UInt8.ofNat (CommonWord.filterIndex.get word)
      frame := UInt8.ofNat (CommonWord.frame.get word)
      subframe := UInt8.ofNat (CommonWord.subframe.get word)
      slot := UInt8.ofNat (CommonWord.slot.get word)
      startSymbol := UInt8.ofNat (CommonWord.startSymbol.get word) }
  let header ← common.parseTypePart type (data.drop 6)
  return ⟨.ofBit (CommonWord.direction.get word), header, Extension.byteAt data 4, type⟩

end MessageHeader

end OpenFronthaul
