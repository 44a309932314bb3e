import OpenFronthaul.Packet

/-!
# Inventories of live objects

An inventory holds, under names, every handle of a shared buffer, every reference, every packet and
every bare pool slot that is alive, beside the accounts kept of them.  `Inventory.perform` carries
out one action; the accounts are right when they can be read off the live objects at any time.  When
a name is given anew, the new object is made first and the old one dropped afterwards.
-/

namespace OpenFronthaul

/-- Objects under names. -/
abbrev Named (α : Type) := List (String × α)

namespace Named

variable {α : Type}

/-- The object of a name. -/
def find? (objects : Named α) (name : String) : Option α :=
  objects.lookup name

/-- All objects but that of a name. -/
def erase (objects : Named α) (name : String) : Named α :=
  objects.filter (·.1 ≠ name)

/-- Give an object a name. -/
def put (objects : Named α) (name : String) (object : α) : Named α :=
  (name, object) :: Named.erase objects name

end Named

/-- All live objects and the accounts kept of them. -/
structure Inventory where
  /-- The accounts. -/
  memory : Memory := {}
  /-- Handles of shared buffers; a handle holds no reference. -/
  buffers : Named SharedBuffer := []
  /-- References outside packets. -/
  references : Named SharedBuffer := []
  /-- Packets. -/
  packets : Named Packet := []
  /-- Pool slots outside packets. -/
  slots : Named Unit := []

namespace Inventory

/-- What can be done with the objects of an inventory. -/
inductive Action where
  /-- Share bytes, with or without a callback. -/
  | share (name : String) (bytes : Bytes) (callback : Bool)
  /-- A second handle of a buffer. -/
  | cloneBuffer (name source : String)
  | dropBuffer (name : String)
  /-- Whether two buffers have the same contents. -/
  | sameContents (name source : String)
  /-- A reference to a buffer. -/
  | attach (name source : String)
  /-- A second reference beside one. -/
  | cloneReference (name source : String)
  | dropReference (name : String)
  /-- Whether a reference is one to a buffer. -/
  | isAttached (name source : String)
  /-- An empty packet outside the pool. -/
  | newPacket (name : String)
  /-- An empty packet with a slot of the pool. -/
  | newPooledPacket (name : String)
  | takeSlot (name : String)
  | freeSlot (name : String)
  | append (name : String) (bytes : Bytes)
  | prepend (name : String) (bytes : Bytes)
  /-- A reference to a buffer at the end of a packet. -/
  | appendShared (name source : String)
  | dropPacket (name : String)

/-- The inventory with a reference under a name; an earlier one of the name is let go. -/
def putReference (inv : Inventory) (name : String) (buffer : SharedBuffer) : Inventory :=
  let memory := inv.memory.attach buffer
  let memory := match inv.references.find? name with
    | some old => memory.release old
    | none => memory
  { inv with memory, references := inv.references.put name buffer }

/-- The inventory with a packet under a name; an earlier one of the name is dropped. -/
def putPacket (inv : Inventory) (name : String) (packet : Packet) : Inventory :=
  let memory := match inv.packets.find? name with
    | some old => inv.memory.drop old
    | none => inv.memory
  { inv with memory, packets := inv.packets.put name packet }

/-- Change the packet of a name. -/
def changePacket (inv : Inventory) (name : String) (change : Packet → Packet) : Inventory :=
  match inv.packets.find? name with
  | some packet => { inv with packets := inv.packets.put name (change packet) }
  | none => inv

/-- Carry out an action.  Questions and removals answer yes or no. -/
def perform (inv : Inventory) : Action → Except LinkError (Option Bool × Inventory)
  | .share name bytes callback =>
    let (buffer, memory) := inv.memory.share bytes callback
    pure (none, { inv with memory, buffers := inv.buffers.put name buffer })
  | .cloneBuffer name source =>
    match inv.buffers.find? source with
    | some buffer => pure (none, { inv with buffers := inv.buffers.put name buffer })
    | none => pure (none, inv)
  | .dropBuffer name =>
    pure (some (inv.buffers.find? name).isSome, { inv with buffers := inv.buffers.erase name })
  | .sameContents name source =>
    let contents (n : String) := (inv.buffers.find? n).map SharedBuffer.bytes
    pure (some (decide (contents name = contents source)), inv)
  | .attach name source =>
    match inv.buffers.find? source with
    | some buffer => pure (none, inv.putReference name buffer)
    | none => pure (none, inv)
  | .cloneReference name source =>
    match inv.references.find? source with
    | some buffer => pure (none, inv.putReference name buffer)
    | none => pure (none, inv)
  | .dropReference name =>
    match inv.references.find? name with
    | some buffer =>
      pure (some true,
        { inv with memory := inv.memory.release buffer, references := inv.references.erase name })
    | none => pure (some false, inv)
  | .isAttached name source =>
    let account (b : Option SharedBuffer) := b.map SharedBuffer.account
    pure (some (decide (account (inv.references.find? name) = account (inv.buffers.find? source))),
      inv)
  | .newPacket name => pure (none, inv.putPacket name {})
  | .newPooledPacket name => do
    let memory ← inv.memory.takeSlot
    return (none, ({ inv with memory }).putPacket name { pooled := true })
  | .takeSlot name => do
    let memory ← inv.memory.takeSlot
    let memory := if (inv.slots.find? name).isSome then memory.freeSlot else memory
    return (none, { inv with memory, slots := inv.slots.put name () })
  | .freeSlot name =>
    if (inv.slots.find? name).isSome then
      pure (some true, { inv with memory := inv.memory.freeSlot, slots := inv.slots.erase name })
    else pure (some false, inv)
  | .append name bytes => pure (none, inv.changePacket name (·.append bytes))
  | .prepend name bytes => pure (none, inv.changePacket name (·.prepend bytes))
  | .appendShared name source =>
    match inv.buffers.find? source, inv.packets.find? name with
    | some buffer, some _ =>
      let inv := inv.changePacket name (·.appendShared buffer)
      pure (none, { inv with memory := inv.memory.attach buffer })
    | _, _ => pure (none, inv)
  | .dropPacket name =>
    match inv.packets.find? name with
    | some packet =>
      pure (some true,
        { inv with memory := inv.memory.drop packet, packets := inv.packets.erase name })
    | none => pure (some false, inv)

end Inventory

/-! ## Forms of objects in reports -/

/-- A byte within a quoted byte string: printable characters stand for themselves. -/
def Bytes.quoteByte (byte : UInt8) : String :=
  match byte.toNat with
  | 0 => "\\0"
  | 9 => "\\t"
  | 10 => "\\n"
  | 13 => "\\r"
  | 34 => "\\\""
  | 92 => "\\\\"
  | n =>
    if 32 ≤ n ∧ n < 127 then String.ofList [Char.ofNat n]
    else "\\x" ++ String.ofList (hexByte byte)

/-- A byte string in quotes. -/
def Bytes.quote (bytes : Bytes) : String :=
  "b\"" ++ String.join (bytes.map quoteByte) ++ "\""

/-- The form of a pool in reports. -/
def Pool.describe (pool : Pool) : String :=
  s!"BufferPool \x7b capacity: {pool.capacity}, in_use: {pool.inUse} \x7d"

/-- The form of a reference in reports. -/
def SharedBuffer.describeReference (buffer : SharedBuffer) : String :=
  s!"ExtBufferRef \x7b len: {buffer.bytes.length} \x7d"

/-- The form of a handle in reports. -/
def SharedBuffer.describe (buffer : SharedBuffer) (memory : Memory) : String :=
  s!"SharedExtBuffer \x7b len: {buffer.bytes.length}, refcnt: {memory.holders buffer} \x7d"

/-- The form of a segment in reports. -/
def Segment.describe : Segment → String
  | owned bytes => s!"Owned({bytes.quote})"
  | shared buffer => s!"External({buffer.describeReference})"

/-- The form of a packet in reports. -/
def Packet.describe (packet : Packet) : String :=
  let slot := if packet.pooled then "Some(PoolSlot)" else "None"
  let segments := ", ".intercalate (packet.segments.map Segment.describe)
  s!"CpPacket \x7b segments: [{segments}], slot: {slot} \x7d"

/-- The form of an object that may be missing in reports. -/
def describeOption {α : Type} (describe : α → String) : Option α → String
  | some object => s!"Some({describe object})"
  | none => "None"

/-- The forms of the pool, and of the reference, the handle and the packet of a name. -/
def Inventory.describe (inv : Inventory) (name : String) : List String :=
  [(inv.memory.pool.map Pool.describe).getD "None",
    describeOption SharedBuffer.describeReference (inv.references.find? name),
    describeOption (fun b => SharedBuffer.describe b inv.memory) (inv.buffers.find? name),
    describeOption Packet.describe (inv.packets.find? name)]

end OpenFronthaul
