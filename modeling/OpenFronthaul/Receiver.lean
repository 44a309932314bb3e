import OpenFronthaul.Message.SectionWord
import OpenFronthaul.PrbMap
import OpenFronthaul.Section.Store

/-!
# Receiving messages

A receiver knows something of the flow that a packet arrived on (`FlowContext`), reads the message
and may record every section in a store.  Sections are recorded as they are read, so a malformed
section stops the packet but keeps what was recorded before it.  What was met on the way is counted
in `ReceiveCounts`, also when the packet turns out to be malformed.

A flow of sounding or channel-state reference signals takes its resource blocks from the map of the
slot, and a sounding flow does not look into extensions but only steps over them.
-/

namespace OpenFronthaul

/-- Antennas from the first to before the second. -/
structure AntennaWindow where
  first : UInt8
  last : UInt8
deriving DecidableEq

/-- Whether an antenna is in a window. -/
def AntennaWindow.contains (w : AntennaWindow) (antenna : UInt8) : Bool :=
  w.first ≤ antenna && antenna < w.last

/-- What a receiver knows of the flow that a packet arrived on. -/
structure FlowContext where
  /-- Numerology of the flow. -/
  mu : Numerology
  /-- Component carrier. -/
  carrier : UInt8
  /-- Antenna of the radio unit. -/
  antenna : UInt8
  /-- What is scheduled in the slot. -/
  map : Option PrbMap := none
  /-- Antennas of sounding reference signals. -/
  sounding : Option AntennaWindow := none
  /-- Antennas of channel-state reference signals. -/
  channelState : Option AntennaWindow := none
  /-- The technology of each slot. -/
  technologies : Option TechnologyPattern := none
  /-- Weights in a beamforming vector. -/
  weights : Option UInt16 := none
  /-- Resource blocks of the carrier. -/
  carrierPrbs : Option UInt16 := none
  /-- How section ids carry the numerology. -/
  tagging : IdTagging := .untagged

namespace FlowContext

/-- Whether the flow carries sounding reference signals. -/
def isSounding (c : FlowContext) : Bool :=
  c.sounding.any (·.contains c.antenna)

/-- Whether the flow takes its resource blocks from the map. -/
def usesMap (c : FlowContext) : Bool :=
  c.isSounding || c.channelState.any (·.contains c.antenna)

/-- The section that was read, as the receiver understands it. -/
def interpret (c : FlowContext) (header : MessageHeader) (type : SectionType)
    (s : WireSection) : Section :=
  let whole := s.numPrb.toNat = 0
  { type
    id := c.tagging.strip s.wireId.toNat
    alternate := s.alternate
    symbolIncrement := s.symbolIncrement
    startPrb := s.startPrb
    numPrb := if whole then c.carrierPrbs.getD 0 else UInt16.ofNat s.numPrb.toNat
    allPrbs := whole
    startSymbol := header.startSymbol
    numSymbols := s.numSymbols
    reMask := s.reMask
    beamId := s.beamId
    frequencyOffset := s.frequencyOffset
    compression := header.compression
    iqWidth := header.iqWidth
    extended := s.extended }

/-- The section with the resource blocks and user data of the map element at its place in the
message, where the flow takes them from the map. -/
def applyMap (c : FlowContext) (index : Nat) (info : Section) : Except Error Section :=
  if c.usesMap then
    match c.map.bind (·.get? index) with
    | some e =>
      pure { info with
        startPrb := e.startPrb, numPrb := e.numPrb, allPrbs := false, pointers := e.pointers }
    | none => throw (.noElementForAntenna index c.antenna)
  else pure info

end FlowContext

/-! ## Counters and state -/

/-- What a receiver has met so far. -/
structure ReceiveCounts where
  /-- Packets. -/
  packets : Nat := 0
  /-- Sections read, and recorded where there is a store. -/
  sections : Nat := 0
  /-- Packets with a failure. -/
  failures : Nat := 0
  /-- Extensions whose announced length is not that of their contents. -/
  lengthMismatches : Nat := 0
  /-- Extensions that name another technology than the slot has. -/
  technologyMismatches : Nat := 0
  /-- Sections of sounding flows. -/
  soundings : Nat := 0
deriving DecidableEq

/-- The state of a receiver: its counters, and the store that it records into, if any. -/
structure Receiver where
  counts : ReceiveCounts := {}
  store : Option SectionStore := none

namespace Receiver

/-- A step of a receiver; its effect on the state stays when it fails. -/
abbrev Step (α : Type) := ExceptT Error (StateM Receiver) α

/-- Change the counters. -/
def count (change : ReceiveCounts → ReceiveCounts) : Step Unit :=
  modify fun r => { r with counts := change r.counts }

/-! ## Extensions -/

/-- Step over a chain of at most `room` extensions by their announced lengths; the result is what
follows the chain. -/
def skipChain : Nat → Bytes → Except Error Bytes
  | 0, _ => throw .chainTooLong
  | room + 1, data => do
    let opening ← Extension.Opening.parse data
    if data.length < opening.length then throw .chainPastEnd
    let rest := data.drop opening.length
    if opening.more then skipChain room rest else return rest

/-- Count an extension whose lengths differ, and one that names another technology than the slot
has. -/
def inspect (c : FlowContext) (slot : Nat) (d : Extension.Decoded) (counts : ReceiveCounts) :
    ReceiveCounts :=
  let counts :=
    if d.mismatch then { counts with lengthMismatches := counts.lengthMismatches + 1 }
    else counts
  match d.extension, c.technologies with
  | .spectrumSharing technology, some pattern =>
    if technology ≠ pattern.technology slot then
      { counts with technologyMismatches := counts.technologyMismatches + 1 }
    else counts
  | _, _ => counts

/-- Read a chain of at most `room` extensions; the result has what follows the chain. -/
def decodeChain (c : FlowContext) (slot : Nat) :
    Nat → Bytes → Step (List Extension × Bytes)
  | 0, _ => throw .chainTooLong
  | room + 1, data => do
    let d ← Extension.decode data c.weights
    count (inspect c slot d)
    let rest := data.drop d.length
    if d.more then
      let (extensions, rest) ← decodeChain c slot room rest
      return (d.extension :: extensions, rest)
    else return ([d.extension], rest)

/-- Read the extensions of a section, if it has any; a sounding flow only steps over them. -/
def readExtensions (c : FlowContext) (slot : Nat) (extended : Bool) (data : Bytes) :
    Step (List Extension × Bytes) := do
  if !extended then return ([], data)
  else if c.isSounding then return ([], ← skipChain maxExtensions data)
  else decodeChain c slot maxExtensions data

/-! ## Sections -/

/-- Empty the bucket of a message when it already holds as many sections as the slot has elements:
they are left over from an earlier slot. -/
def resetStale (c : FlowContext) (key : SectionKey) (store : SectionStore) :
    Except Error SectionStore :=
  match c.map with
  | some map => if map.size ≤ store.size key then store.reset key else pure store
  | none => pure store

/-- Record a section, the first one of its message after a look at what is left over. -/
def record (c : FlowContext) (key : SectionKey) (index : Nat) (info : Section) : Step Unit := do
  match (← get).store with
  | none => return
  | some store =>
    let store ← if index = 0 then resetStale c key store else pure store
    modify fun r => { r with store := some store }
    let store ← store.add key info
    modify fun r => { r with store := some store }

/-- Read one section with its extensions; the result has what follows the section. -/
def readBody (c : FlowContext) (parsed : MessageHeader.Parsed) (slot : Nat) (index : Nat)
    (data : Bytes) : Step (ExtendedSection × Bytes) := do
  let wire ← WireSection.parse data parsed.type
  let info ← c.applyMap index (c.interpret parsed.header parsed.type wire)
  if c.isSounding then
    count fun counts => { counts with soundings := counts.soundings + 1 }
  let (extensions, rest) ←
    readExtensions c slot wire.extended (data.drop parsed.type.sectionLength)
  return (⟨info, extensions⟩, rest)

/-- Read one section with its extensions and record it; the result has what follows the section. -/
def readSection (c : FlowContext) (parsed : MessageHeader.Parsed) (key : SectionKey) (slot : Nat)
    (index : Nat) (data : Bytes) : Step (ExtendedSection × Bytes) := do
  let (s, rest) ← readBody c parsed slot index data
  record c key index s.info
  count fun counts => { counts with sections := counts.sections + 1 }
  return (s, rest)

/-- Read the given number of sections, of which the first has the given place in the message. -/
def readSections (c : FlowContext) (parsed : MessageHeader.Parsed) (key : SectionKey) (slot : Nat) :
    Nat → Nat → Bytes → Step (List ExtendedSection)
  | 0, _, _ => return []
  | count + 1, index, data => do
    let (s, rest) ← readSection c parsed key slot index data
    return s :: (← readSections c parsed key slot count (index + 1) rest)

/-! ## Messages -/

/-- The bucket that the sections of a message belong to. -/
def bucketKey (c : FlowContext) (parsed : MessageHeader.Parsed) : SectionKey :=
  ⟨parsed.direction, c.carrier, c.antenna,
    rotationContext (c.mu.slotIndex parsed.header.slotTime)⟩

/-- Read the header of a message, which must declare a permitted number of sections. -/
def acceptHeader (data : Bytes) : Except Error MessageHeader.Parsed := do
  let parsed ← MessageHeader.parse data
  if parsed.sections = 0 ∨ maxSections < parsed.sections then
    throw (.declaredSections parsed.sections)
  else return parsed

/-- Read a message. -/
def readMessage (c : FlowContext) (data : Bytes) : Step Message := do
  let parsed ← acceptHeader data
  let slot := c.mu.slotIndex parsed.header.slotTime
  let sections ← readSections c parsed (bucketKey c parsed) slot parsed.sections 0
    (data.drop parsed.type.headerLength)
  return ⟨parsed.direction, parsed.type, parsed.header, sections⟩

/-- Take in a packet: read its message, record its sections where there is a store, and count the
packet and its failure. -/
def receive (c : FlowContext) (data : Bytes) : Step Message := do
  count fun counts => { counts with packets := counts.packets + 1 }
  tryCatch (readMessage c data) fun e => do
    count fun counts => { counts with failures := counts.failures + 1 }
    throw e

/-- Read a message and count it, without recording anything. -/
def parse (c : FlowContext) (data : Bytes) (counts : ReceiveCounts) :
    Except Error Message × ReceiveCounts :=
  let (result, receiver) := (receive c data).run { counts }
  (result, receiver.counts)

/-- Read a message, count it and record its sections. -/
def decode (c : FlowContext) (data : Bytes) (counts : ReceiveCounts) (store : SectionStore) :
    Except Error Message × ReceiveCounts × SectionStore :=
  let (result, receiver) := (receive c data).run { counts, store := some store }
  (result, receiver.counts, receiver.store.getD store)

end Receiver

end OpenFronthaul
