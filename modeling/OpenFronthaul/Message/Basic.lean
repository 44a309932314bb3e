import OpenFronthaul.Extension.Basic

/-!
# Control messages

A message schedules user data of one direction in one slot.  It has a header and up to 32 sections
of one type, each with up to ten extensions.
-/

namespace OpenFronthaul

/-- The most sections of a message. -/
def maxSections : Nat := 32

/-- The most extensions of a section. -/
def maxExtensions : Nat := 10

/-- The header of a message. -/
structure MessageHeader where
  /-- Filter of the channel. -/
  filterIndex : UInt8 := 0
  /-- Frame of the slot. -/
  frame : UInt8 := 0
  /-- Subframe of the slot. -/
  subframe : UInt8 := 0
  /-- The slot within the subframe. -/
  slot : UInt8 := 0
  /-- First symbol. -/
  startSymbol : UInt8 := 0
  /-- Compression of the user data. -/
  compression : IqCompression := .none
  /-- Sample width of the user data. -/
  iqWidth : UInt8 := 0
  /-- Time offset in samples, of mixed sections only. -/
  timeOffset : UInt16 := 0
  /-- Code of the transform size, of mixed sections only. -/
  fftSize : UInt8 := 0
  /-- Code of the subcarrier spacing, of mixed sections only. -/
  spacing : UInt8 := 0
  /-- Length of the cyclic prefix, of mixed sections only. -/
  cyclicPrefix : UInt16 := 0
deriving DecidableEq

/-- The wire name of the slot that a header is for. -/
def MessageHeader.slotTime (h : MessageHeader) : SlotTime :=
  ⟨h.frame, h.subframe, h.slot⟩

/-- A section with its extensions. -/
structure ExtendedSection where
  /-- The section. -/
  info : Section
  /-- The extensions in wire order. -/
  extensions : List Extension
deriving DecidableEq

/-- A section with extensions that says itself whether it has any. -/
def ExtendedSection.create (info : Section) (extensions : List Extension) : ExtendedSection :=
  ⟨{ info with extended := !extensions.isEmpty }, extensions⟩

/-- A control message. -/
structure Message where
  /-- Direction of the user data. -/
  direction : Direction
  /-- Type of all sections. -/
  type : SectionType
  /-- Header. -/
  header : MessageHeader
  /-- Sections in wire order. -/
  sections : List ExtendedSection
deriving DecidableEq

/-- The shared buffers that a message refers to. -/
def Message.buffers (m : Message) : List SharedBuffer :=
  m.sections.flatMap fun s => s.extensions.filterMap Extension.buffer?

end OpenFronthaul
