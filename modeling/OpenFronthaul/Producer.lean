import OpenFronthaul.Ecpri.Header
import OpenFronthaul.Frame.Structure
import OpenFronthaul.Message.Encode
import OpenFronthaul.PrbMap
import OpenFronthaul.Section.Store

/-!
# Producing messages

The producer turns the resource-block map of a slot into packets, one message with one section for
each element, and records every section in the store.  In a special slot an element is clipped to
the first run of symbols of its direction, and skipped when nothing is left of it.  Every packet of
a flow gets the next sequence number of the flow.

A failure ends the work on a map: the packets built so far are dropped, but the sequence numbers
that were handed out, the sections that were recorded and the counts stay.
-/

namespace OpenFronthaul

/-- Where the processing of beams takes place. -/
inductive Category where
  /-- In the distributed unit. -/
  | a
  /-- In the radio unit, with weights sent over the fronthaul. -/
  | b
deriving DecidableEq

/-- The category of a code. -/
def Category.ofCode : Nat → Except Error Category
  | 0 => pure a
  | 1 => pure b
  | code => throw (.category code)

/-- A flow of control messages. -/
structure Flow where
  /-- Direction of the user data. -/
  direction : Direction
  /-- Component carrier. -/
  carrier : UInt8
  /-- Antenna of the radio unit. -/
  antenna : UInt8
deriving DecidableEq, Hashable

/-- The place in the count of section ids of a slot. -/
structure IdCursor where
  /-- The slot. -/
  slot : Nat
  /-- The next id. -/
  next : Nat
deriving DecidableEq

/-- What a producer has done so far. -/
structure ProducerCounts where
  /-- Packets. -/
  packets : Nat := 0
  /-- Sections. -/
  sections : Nat := 0
  /-- Elements without symbols of their direction. -/
  skipped : Nat := 0
deriving DecidableEq

/-- What a producer goes by. -/
structure ProducerSettings where
  /-- Numerology of the carrier. -/
  mu : Numerology
  /-- How section ids carry the numerology. -/
  tagging : IdTagging
  /-- Framing of the packets. -/
  framer : Ecpri.Framer
  /-- What the slots carry. -/
  frame : FrameStructure
  /-- The largest Ethernet frame. -/
  mtu : Nat

/-- A producer with the store that it records into and the memory of its packets. -/
structure Producer where
  /-- What the producer goes by. -/
  settings : ProducerSettings
  /-- Recorded sections. -/
  store : SectionStore
  /-- Accounts of shared buffers and packets. -/
  memory : Memory := {}
  /-- The next sequence number of each flow that had one already. -/
  sequences : Std.HashMap Flow UInt8 := {}
  /-- The place in the count of section ids of each flow. -/
  cursors : Std.HashMap Flow IdCursor := {}
  /-- Counts. -/
  counts : ProducerCounts := {}

namespace Producer

/-- A step of a producer; its effect on the state stays when it fails. -/
abbrev Step (α : Type) := ExceptT Error (StateM Producer) α

/-! ## Numbers handed out -/

/-- The next section id of a flow in a slot.  Ids count from zero, and start again in a new slot and
when a message worth of ids has been handed out. -/
def allocId (p : Producer) (flow : Flow) (slot : Nat) : Nat × Producer :=
  let cursor := p.cursors.getD flow ⟨slot, 0⟩
  let id := if cursor.slot ≠ slot ∨ maxSections ≤ cursor.next then 0 else cursor.next
  (id, { p with cursors := p.cursors.insert flow ⟨slot, id + 1⟩ })

/-- The next section ids of a flow in a slot, the given number of them. -/
def allocIds (p : Producer) (flow : Flow) (slot : Nat) : Nat → List Nat × Producer
  | 0 => ([], p)
  | count + 1 =>
    let (id, p) := p.allocId flow slot
    let (ids, p) := p.allocIds flow slot count
    (id :: ids, p)

/-- The sequence number that the next packet of a flow gets. -/
def nextSequence (p : Producer) (flow : Flow) : UInt8 :=
  p.sequences.getD flow 0

/-- Hand out the next sequence number of a flow; the numbers wrap. -/
def takeSequence (flow : Flow) : Step UInt8 := do
  let number := (← get).nextSequence flow
  modify fun p => { p with sequences := p.sequences.insert flow (number + 1) }
  return number

/-! ## The message of an element -/

/-- The symbols of an element that a slot leaves it: all of them, but in a special slot those in the
first run of symbols of the direction. -/
def elementSymbols (frame : FrameStructure) (direction : Direction) (slot : Nat)
    (e : PrbElement) : Option (Nat × Nat) :=
  if frame.duplex ≠ .fdd ∧ frame.isSpecial slot then
    frame.clip? (.ofDirection direction) slot e.startSymbol.toNat e.numSymbols.toNat
  else some (e.startSymbol.toNat, e.numSymbols.toNat)

/-- The extension with the weights of an element. -/
def weightExtension (w : ElementWeights) (mtu : Nat) : Except Error Extension :=
  if w.bundlePrbs.toNat = 0 then
    pure (.beamWeights ⟨w.width, w.coding, w.weights⟩)
  else
    match w.bundles with
    | none => throw .noWeightBuffer
    | some payload => do
      let most ← WeightBundles.maxBundles w.count.toNat w.width w.bundleMethod mtu
      if most < w.bundleCount.toNat then
        throw (.tooManyBundles w.bundleCount.toNat mtu most)
      return .weightBundles
        { bundlePrbs := w.bundlePrbs, method := w.bundleMethod, width := w.width
          count := w.bundleCount, payload }

/-- The extensions of an element: its modulation scaling, and its weights where the radio unit
processes the beams. -/
def elementExtensions (e : PrbElement) (category : Category) (mtu : Nat) :
    Except Error (List Extension) := do
  let scaling : List Extension :=
    if e.compression = .modulation then [.modulationScaling ⟨e.shifted, e.scaler⟩] else []
  if category = .b ∧ e.weightUpdate then
    return scaling ++ [← weightExtension e.weights mtu]
  else return scaling

/-- The section of an element on the given symbols. -/
def elementSection (e : PrbElement) (index start count : Nat) : Section :=
  { id := UInt16.ofNat index
    startPrb := e.startPrb
    numPrb := e.numPrb
    startSymbol := UInt8.ofNat start
    numSymbols := UInt8.ofNat count
    reMask := 0xfff
    beamId := e.beam
    compression := e.compression
    iqWidth := e.iqWidth
    elementBegin := true
    elementEnd := true
    pointers := e.pointers }

/-- The message of an element on the given symbols of a slot. -/
def elementMessage (settings : ProducerSettings) (direction : Direction) (slot : Nat)
    (category : Category) (e : PrbElement) (index start count : Nat) :
    Except Error Message := do
  let extensions ← elementExtensions e category settings.mtu
  let time := settings.mu.slotTime slot
  let header : MessageHeader :=
    { frame := time.frame
      subframe := time.subframe
      slot := time.slot
      startSymbol := UInt8.ofNat start
      compression := e.compression
      iqWidth := e.iqWidth }
  return { direction, type := .regular, header
           sections := [.create (elementSection e index start count) extensions] }

/-! ## Packets -/

/-- Drop packets. -/
def dropPackets (packets : List Packet) : Step Unit :=
  modify fun p => { p with memory := p.memory.dropAll packets }

/-- Write a message into a packet of its own. -/
def encodeMessage (m : Message) : Step Packet := do
  let p ← get
  let (result, memory) := (m.encode p.settings.mu p.settings.tagging).run p.memory
  set { p with memory }
  liftExcept result
where
  /-- The failure of an inner step is that of the whole. -/
  liftExcept (result : Except Error Packet) : Step Packet :=
    match result with
    | .ok packet => pure packet
    | .error e => throw e

/-- The packet with the header of its flow in front, if it fits a frame. -/
def addHeader (settings : ProducerSettings) (flow : Flow) (sequence : UInt8) (packet : Packet) :
    Except Error Packet := do
  let header := settings.framer.header flow.carrier flow.antenna sequence
  let packet := packet.prepend (← liftLink (Ecpri.setPayloadSize header packet.length))
  let length := packet.length + WeightBundles.ethernetLength
  if settings.mtu < length then throw (.frameTooLong length settings.mtu)
  return packet

/-- Write a message and put the header of its flow in front. -/
def frameMessage (flow : Flow) (m : Message) : Step Packet := do
  let packet ← encodeMessage m
  let sequence ← takeSequence flow
  match addHeader (← get).settings flow sequence packet with
  | .ok packet => return packet
  | .error e =>
    dropPackets [packet]
    throw e

/-- Record a section. -/
def recordSection (key : SectionKey) (info : Section) : Step Unit := do
  let store ← (← get).store.add key info
  modify fun p => { p with store }

/-- Forget the sections recorded in a bucket. -/
def emptyBucket (key : SectionKey) : Step Unit := do
  let store ← (← get).store.reset key
  modify fun p => { p with store }

/-- Change the counts. -/
def count (change : ProducerCounts → ProducerCounts) : Step Unit :=
  modify fun p => { p with counts := change p.counts }

/-- What a map is built for. -/
structure Order where
  /-- The flow of the packets. -/
  flow : Flow
  /-- The slot that the map is for. -/
  slot : Nat
  /-- Where beams are processed. -/
  category : Category
  /-- The rotation context that the sections are recorded under. -/
  context : UInt8

/-- The bucket that the sections of an order are recorded in. -/
def Order.key (o : Order) : SectionKey :=
  ⟨o.flow.direction, o.flow.carrier, o.flow.antenna, o.context⟩

/-- Build the packet of one element; a skipped element has none. -/
def buildElement (o : Order) (index : Nat) (e : PrbElement) : Step (Option Packet) := do
  let settings := (← get).settings
  match elementSymbols settings.frame o.flow.direction o.slot e with
  | none =>
    count fun c => { c with skipped := c.skipped + 1 }
    return none
  | some (start, symbols) =>
    let m ← elementMessage settings o.flow.direction o.slot o.category e index start symbols
    let packet ← frameMessage o.flow m
    tryCatch (m.sections.forM fun s => recordSection o.key s.info) fun error => do
      dropPackets [packet]
      throw error
    count fun c => { c with packets := c.packets + 1, sections := c.sections + 1 }
    return some packet

/-- Build the packets of elements, the first of which has the given place in its map; after a
failure the packets built before are dropped. -/
def buildElements (o : Order) (index : Nat) : List PrbElement → Step (List Packet)
  | [] => return []
  | e :: rest => do
    let packet ← buildElement o index e
    let packets ← tryCatch (buildElements o (index + 1) rest) fun error => do
      dropPackets packet.toList
      throw error
    return packet.toList ++ packets

/-- Build the packets of the elements of a map from the first to before the second number. -/
def buildRange (o : Order) (map : PrbMap) (range : Nat × Nat) : Step (List Packet) :=
  buildElements o (min range.1 map.size) ((map.elements.take range.2).drop range.1)

/-- Build the packets of all elements of a map. -/
def buildMap (o : Order) (map : PrbMap) : Step (List Packet) :=
  buildRange o map (0, map.size)

end Producer

end OpenFronthaul
