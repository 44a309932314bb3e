import OpenFronthaul.Emulation.Plan
import OpenFronthaul.Receiver

/-!
# The radio unit

The radio unit takes the header off every packet, finds the flow by its antenna-carrier id, and
decodes the message into a store of its own.  It knows the map of every slot, the technologies of
the slots and the size of the carrier.
-/

namespace OpenFronthaul

/-- The state of a radio unit. -/
structure RadioUnit where
  /-- Recorded sections. -/
  store : SectionStore
  /-- What was received so far. -/
  counts : ReceiveCounts := {}

namespace RadioUnit

/-- What the radio unit knows of the flow of a message. -/
def context (plan : Plan) (id : EaxcId) (message : Bytes) : FlowContext where
  mu := plan.config.mu
  carrier := id.carrier
  antenna := id.antenna
  map := some (plan.map (.ofBit ((message.headD 0).toNat / 128)))
  technologies := plan.config.technologies
  carrierPrbs := plan.config.carrierPrbs?
  tagging := plan.config.tagging

/-- Take in a packet; one without a usable header is dropped. -/
def receive (plan : Plan) (unit : RadioUnit) (packet : Bytes) : RadioUnit :=
  match plan.framer.parse packet with
  | .error _ => unit
  | .ok (_, id) =>
    let message := packet.drop Ecpri.headerLength
    let (_, counts, store) :=
      Receiver.decode (context plan id message) message unit.counts unit.store
    ⟨store, counts⟩

end RadioUnit

end OpenFronthaul
