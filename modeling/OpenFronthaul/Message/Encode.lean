import OpenFronthaul.Message.SectionWord
import OpenFronthaul.Section.Tagging

/-!
# Writing messages

A message is checked as a whole (`Message.validate`), then written part by part
(`Message.segments`); neighbouring bytes make one segment, and a shared buffer of weights stays a
segment of its own.  `Message.encode` also books the packet: it takes a slot of the pool first and
gives it back when anything fails.
-/

namespace OpenFronthaul

namespace Message

/-- The first failure among the extensions of the sections: too many of them, or bundles of weights
that something follows. -/
def checkExtensions : List ExtendedSection → Except Error Unit
  | [] => pure ()
  | s :: rest =>
    if maxExtensions < s.extensions.length then
      throw (.extensionCount s.info.id.toNat s.extensions.length)
    else
      let inner := if rest.isEmpty then s.extensions.dropLast else s.extensions
      if inner.any Extension.isBundles then throw .bundlesNotLast else checkExtensions rest

/-- Refuse a message that cannot be written whatever its fields are. -/
def validate (m : Message) : Except Error Unit :=
  if !m.type.isSupported then throw (.sectionTypeUnsupported m.type)
  else if m.sections.isEmpty ∨ maxSections < m.sections.length then
    throw (.sectionCount m.sections.length)
  else checkExtensions m.sections

/-- The segments of a chain of extensions. -/
def encodeChain : List Extension → Except Error (List Segment)
  | [] => pure []
  | e :: rest => do
    let encoded ← e.encode (!rest.isEmpty)
    return encoded.segments ++ (← encodeChain rest)

/-- The segments of a section with its extensions. -/
def encodeSection (mu : Numerology) (tagging : IdTagging) (type : SectionType)
    (s : ExtendedSection) : Except Error (List Segment) := do
  let wireId ← tagging.tag s.info.id mu
  let body ← s.info.encode type wireId (!s.extensions.isEmpty)
  return .owned body :: (← encodeChain s.extensions)

/-- The segments of a message. -/
def segments (m : Message) (mu : Numerology) (tagging : IdTagging) :
    Except Error (List Segment) := do
  let header ← m.header.encode m.direction m.type m.sections.length
  let sections ← m.sections.mapM (encodeSection mu tagging m.type)
  return Segment.coalesce (.owned header :: sections.flatten)

/-- Write a message into a packet and book it: a slot of the pool and the references to shared
buffers.  After a failure nothing stays booked. -/
def encode (m : Message) (mu : Numerology) (tagging : IdTagging) :
    ExceptT Error (StateM Memory) Packet := do
  m.validate
  let memory ← liftLink (← get).takeSlot
  let pooled := memory.pool.isSome
  match m.segments mu tagging with
  | .ok segments =>
    set (memory.attachAll segments)
    return { segments, pooled }
  | .error e =>
    set (if pooled then memory.freeSlot else memory)
    throw e

end Message

end OpenFronthaul
