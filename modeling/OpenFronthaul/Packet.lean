import OpenFronthaul.Memory

/-!
# Packets

A packet is a list of segments in wire order.  A segment is either bytes of its own or a reference
to a shared buffer; the packet goes out as the concatenation of all (`wire`).  A packet may hold a
slot of the pool, and gives the slot and all references back when it is dropped.
-/

namespace OpenFronthaul

-- Sums begin with the zero of the core library, whatever else is imported.
attribute [local instance (high)] Zero.ofOfNat0

/-- A stretch of a packet. -/
inductive Segment where
  /-- Bytes that belong to the packet. -/
  | owned (bytes : Bytes)
  /-- A reference to a shared buffer. -/
  | shared (buffer : SharedBuffer)
deriving DecidableEq

namespace Segment

/-- The bytes of a segment. -/
def bytes : Segment → Bytes
  | owned bytes => bytes
  | shared buffer => buffer.bytes

/-- Whether a segment refers to a shared buffer. -/
def isShared : Segment → Bool
  | owned _ => false
  | shared _ => true

/-- Put bytes in front of segments, joined with the first one if that is bytes as well. -/
def join (bytes : Bytes) : List Segment → List Segment
  | owned more :: rest => owned (bytes ++ more) :: rest
  | segments => if bytes.isEmpty then segments else owned bytes :: segments

/-- Join neighbouring bytes and leave out empty ones. -/
def coalesce : List Segment → List Segment
  | [] => []
  | owned bytes :: rest => join bytes (coalesce rest)
  | shared buffer :: rest => shared buffer :: coalesce rest

/-- Bytes in a list of segments. -/
def totalLength (segments : List Segment) : Nat :=
  (segments.map fun s => s.bytes.length).sum

end Segment

/-- A packet made of segments. -/
structure Packet where
  /-- The segments in wire order. -/
  segments : List Segment := []
  /-- The packet holds a slot of the pool. -/
  pooled : Bool := false
deriving DecidableEq

namespace Packet

/-- The packet with bytes at its end; no bytes make no segment. -/
def append (packet : Packet) (bytes : Bytes) : Packet :=
  if bytes.isEmpty then packet
  else { packet with segments := packet.segments ++ [.owned bytes] }

/-- The packet with bytes in front of all else. -/
def prepend (packet : Packet) (bytes : Bytes) : Packet :=
  { packet with segments := .owned bytes :: packet.segments }

/-- The packet with a reference to a shared buffer at its end. -/
def appendShared (packet : Packet) (buffer : SharedBuffer) : Packet :=
  { packet with segments := packet.segments ++ [.shared buffer] }

/-- The packet as it appears on the wire. -/
def wire (packet : Packet) : Bytes :=
  packet.segments.flatMap Segment.bytes

/-- The packet in one piece.  The bytes of a packet that has no other segment are taken as they are;
otherwise the segments are copied one after the other. -/
def contiguous (packet : Packet) : Bytes :=
  match packet.segments with
  | [.owned bytes] => bytes
  | segments => segments.foldl (fun out segment => out ++ segment.bytes) []

/-- Bytes of the packet. -/
def length (packet : Packet) : Nat :=
  Segment.totalLength packet.segments

/-- Bytes of the packet outside shared buffers. -/
def ownedLength (packet : Packet) : Nat :=
  Segment.totalLength (packet.segments.filter fun s => !s.isShared)

/-- References to shared buffers. -/
def sharedCount (packet : Packet) : Nat :=
  packet.segments.countP Segment.isShared

theorem length_wire (packet : Packet) : packet.wire.length = packet.length := by
  simp [wire, length, Segment.totalLength, List.length_flatMap]

theorem contiguous_eq_wire (packet : Packet) : packet.contiguous = packet.wire := by
  rw [contiguous, wire]
  split
  · rename_i bytes hsegments
    rw [hsegments, List.flatMap_singleton]
    rfl
  · exact List.flatMap_eq_foldl.symm

end Packet

namespace Memory

/-- Book the references of a list of segments. -/
def attachAll (memory : Memory) (segments : List Segment) : Memory :=
  segments.foldl
    (fun memory segment =>
      match segment with
      | .owned _ => memory
      | .shared buffer => memory.attach buffer)
    memory

/-- Book that the references of a list of segments are gone. -/
def releaseAll (memory : Memory) (segments : List Segment) : Memory :=
  segments.foldl
    (fun memory segment =>
      match segment with
      | .owned _ => memory
      | .shared buffer => memory.release buffer)
    memory

/-- Drop a packet: its references go first, then its slot. -/
def drop (memory : Memory) (packet : Packet) : Memory :=
  let memory := memory.releaseAll packet.segments
  if packet.pooled then memory.freeSlot else memory

/-- Drop packets in order. -/
def dropAll (memory : Memory) (packets : List Packet) : Memory :=
  packets.foldl drop memory

end Memory

end OpenFronthaul
