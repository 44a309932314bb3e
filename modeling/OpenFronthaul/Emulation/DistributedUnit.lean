import OpenFronthaul.Emulation.Plan

/-!
# The distributed unit

When a control deadline fires, the distributed unit builds its part of the map for every flow of the
direction and sends the packets.  The first part of a slot empties the buckets that it records into.
A flow that fails sends nothing for the part; the others go on.
-/

namespace OpenFronthaul.Plan

/-- What a flow is built for when an event fires. -/
def order (plan : Plan) (event : SymbolEvent) (flow : Flow) : Producer.Order :=
  ⟨flow, event.target, plan.config.category, event.context⟩

/-- Build a range of the map for one flow and send it, if there is anything in it; the result is
what was sent. -/
def sendRange (plan : Plan) (event : SymbolEvent) (range : Nat × Nat) (flow : Flow) :
    Producer.Step (List Bytes) := do
  if range.1 < range.2 then
    let packets ← Producer.buildRange (plan.order event flow) (plan.map flow.direction) range
    Producer.dropPackets packets
    return packets.map Packet.wire
  else return []

/-- The work of one flow on a range of the map; the first part of a slot empties the bucket. -/
def flowStep (plan : Plan) (event : SymbolEvent) (range : Nat × Nat) (flow : Flow) :
    Producer.Step (List Bytes) := do
  if event.part = 0 then Producer.emptyBucket (plan.order event flow).key
  plan.sendRange event range flow

/-- What a flow sends for a range of the map. -/
def buildFlow (plan : Plan) (event : SymbolEvent) (range : Nat × Nat) (flow : Flow) :
    StateM Producer (List Bytes) := do
  match ← (plan.flowStep event range flow).run with
  | .ok sent => return sent
  | .error _ => return []

/-- Build what an event asks for in a direction, if its slot serves the direction; the result is
what is sent. -/
def build (plan : Plan) (direction : Direction) (event : SymbolEvent) :
    StateM Producer (List Bytes) := do
  let range := (plan.map direction).partRange event.part event.parts
  if plan.frame.serves event.target (.ofDirection direction)
      ∧ (range.1 < range.2 ∨ event.part = 0) then
    return (← (plan.flows direction).mapM (plan.buildFlow event range)).flatten
  else return []

end OpenFronthaul.Plan
