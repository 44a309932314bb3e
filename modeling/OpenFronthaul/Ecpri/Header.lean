import OpenFronthaul.Bytes
import OpenFronthaul.Ecpri.EaxcId

/-!
# eCPRI headers

Eight bytes stand in front of every message on the fronthaul: a common header of four bytes with
the protocol revision, the type of the message and the number of bytes that follow it, and then the
antenna-carrier id, a sequence number and the fragment byte.  `Framer.header` writes the header of a
control message with the size of an empty one; `setPayloadSize` puts in the size of the payload once
it is known; `Framer.parse` reads a header back.
-/

namespace OpenFronthaul

namespace Ecpri

/-- The supported protocol revision. -/
def revision : Nat := 1

/-- Bytes of the common header. -/
def commonLength : Nat := 4

/-- Bytes of the whole header. -/
def headerLength : Nat := 8

/-- The type of a message on the fronthaul. -/
inductive MessageType where
  /-- User data samples. -/
  | iqData
  /-- Control data. -/
  | control
  /-- Any other type, by its code. -/
  | other (code : UInt8)
deriving DecidableEq

/-- The wire code of a message type. -/
def MessageType.code : MessageType → UInt8
  | iqData => 0
  | control => 2
  | other code => code

/-- The message type of a wire code. -/
def MessageType.ofCode (code : UInt8) : MessageType :=
  if code = 0 then iqData else if code = 2 then control else other code

/-- The fields of a header. -/
structure Header where
  /-- Protocol revision. -/
  revision : Nat
  /-- Another message follows in the same frame. -/
  concatenated : Bool
  /-- Type of the message. -/
  type : MessageType
  /-- Bytes that follow the common header. -/
  payloadSize : Nat
  /-- Antenna-carrier id. -/
  id : UInt16
  /-- Sequence number of the flow. -/
  sequence : UInt8
  /-- Last fragment of a message. -/
  lastFragment : Bool
  /-- Number of the fragment. -/
  fragment : Nat
deriving DecidableEq

/-- Put the size of a payload into the header at the start of a byte string; the size field also
counts the four bytes behind the common header. -/
def setPayloadSize (bytes : Bytes) (size : Nat) : Except LinkError Bytes :=
  if bytes.length < commonLength then
    throw (.shortBuffer commonLength bytes.length)
  else
    let total := size + (headerLength - commonLength)
    if 65535 < total then throw (.payloadSize total)
    else pure (bytes.take 2 ++ Bytes.ofNat 2 total ++ bytes.drop commonLength)

/-- One side of the fronthaul that frames messages: the layout of its antenna-carrier ids and the
parts of them that are its own. -/
structure Framer where
  layout : EaxcLayout := {}
  unit : UInt8 := 0
  bandSector : UInt8 := 0

namespace Framer

/-- A framer with a usable layout. -/
def create (layout : EaxcLayout) (unit bandSector : UInt8) : Except LinkError Framer := do
  layout.validate
  return ⟨layout, unit, bandSector⟩

/-- The header of a control message of a flow, with the payload size of an empty message.  Control
messages are never fragmented. -/
def header (framer : Framer) (carrier antenna sequence : UInt8) : Bytes :=
  let id := framer.layout.compose ⟨framer.unit, framer.bandSector, carrier, antenna⟩
  [UInt8.ofNat (revision * 16), MessageType.control.code]
    ++ Bytes.ofNat 2 (headerLength - commonLength) ++ Bytes.ofNat 2 id.toNat ++ [sequence, 0x80]

/-- The header at the start of a byte string with the parts of its antenna-carrier id. -/
def parse (framer : Framer) (bytes : Bytes) : Except LinkError (Header × EaxcId) :=
  match bytes with
  | b0 :: b1 :: b2 :: b3 :: b4 :: b5 :: b6 :: b7 :: _ =>
    let header : Header :=
      { revision := b0.toNat / 16
        concatenated := b0.toNat % 2 = 1
        type := .ofCode b1
        payloadSize := Bytes.toNat [b2, b3]
        id := UInt16.ofNat (Bytes.toNat [b4, b5])
        sequence := b6
        lastFragment := 128 ≤ b7.toNat
        fragment := b7.toNat % 128 }
    if header.revision ≠ Ecpri.revision then throw (.revision header.revision)
    else if bytes.length < header.payloadSize + commonLength then
      throw (.shortBuffer (header.payloadSize + commonLength) bytes.length)
    else pure (header, framer.layout.decompose header.id)
  | _ => throw (.shortBuffer headerLength bytes.length)

end Framer

end Ecpri

end OpenFronthaul
