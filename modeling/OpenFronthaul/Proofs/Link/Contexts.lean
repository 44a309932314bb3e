import OpenFronthaul.Emulation.DistributedUnit
import OpenFronthaul.Proofs.Receiver.Elements
import OpenFronthaul.Proofs.Store.Contexts
import OpenFronthaul.Proofs.Timing.Firing
import Mathlib.Tactic

/-!
# Agreeing on rotation contexts

A callback tells the slot that it serves by its number within a second, and the context that the
sections of the slot are to be recorded under.  The receiver of the packets has the number of the
slot within 256 frames only.  Both sides still come to the same context, the number of the slot
since the start of the clock modulo four, so that slots in flight never share a bucket
(`contexts_shared`).
-/

namespace OpenFronthaul

/-- The packets of a range of a map are those of its elements. -/
lemma Producer.exists_of_mem_buildRange {p after : Producer} {o : Order} {map : PrbMap}
    {range : ℕ × ℕ} {packets : List Packet}
    (h : (buildRange o map range).run p = (.ok packets, after)) {packet : Packet}
    (hmem : packet ∈ packets) : ∃ e index, IsElementPacket p.settings o e index packet := by
  obtain ⟨-, hframed⟩ := run_buildElements_eq_ok (UInt8.add_zero _).symm h
  obtain ⟨x, -, hx⟩ := exists_of_mem_right hframed hmem
  exact ⟨x.1.1, x.1.2, hx.isElementPacket⟩

/-- Four slots in a row have four contexts. -/
lemma nodup_rotationContext (mu : Numerology) (slot : ℕ) :
    ((List.range 4).map fun (j : ℕ) => rotationContext (mu.wrapSlot (slot + j : ℕ))).Nodup := by
  refine List.Nodup.of_map UInt8.toNat ?_
  have hcount : ((List.range 4).map fun (j : ℕ) => rotationContext (mu.wrapSlot (slot + j : ℕ))).map
      UInt8.toNat = (List.range 4).map fun j => (slot + j) % 4 := by
    rw [List.map_map]
    refine List.map_congr_left fun j _ => ?_
    exact toNat_rotationContext_wrapSlot mu (slot + j)
  rw [hcount]
  exact Scheduler.nodup_counted le_rfl

/-- A range of a map that a producer has built, and what the receiver knows of the flow. -/
structure Exchange where
  /-- The producer before. -/
  producer : Producer
  /-- The order. -/
  order : Producer.Order
  /-- The map. -/
  map : PrbMap
  /-- The first element of the range, and the one behind the last. -/
  range : ℕ × ℕ
  /-- The packets. -/
  packets : List Packet
  /-- The producer afterwards. -/
  after : Producer
  /-- What the receiver knows. -/
  context : FlowContext

namespace Exchange

/-- Both sides are on one numerology and one flow, and the packets are what was built. -/
structure IsOn (x : Exchange) (mu : Numerology) : Prop where
  producer_mu : x.producer.settings.mu = mu
  context_mu : x.context.mu = mu
  carrier_eq : x.context.carrier = x.order.flow.carrier
  antenna_eq : x.context.antenna = x.order.flow.antenna
  run_eq : (Producer.buildRange x.order x.map x.range).run x.producer = (.ok x.packets, x.after)

/-- The receiver takes a packet for one of the bucket of its slot. -/
lemma IsOn.exists_bucketKey {x : Exchange} {mu : Numerology} (h : x.IsOn mu) {packet : Packet}
    (hmem : packet ∈ x.packets) : ∃ parsed, Receiver.acceptHeader packet.message = .ok parsed ∧
      mu.slotIndex parsed.header.slotTime = x.order.slot % (2560 * 2 ^ mu.index) ∧
      Receiver.bucketKey x.context parsed = x.order.slotKey := by
  obtain ⟨e, index, helement⟩ := Producer.exists_of_mem_buildRange h.run_eq hmem
  obtain ⟨parsed, haccept, -, hdirection, hslot⟩ :=
    Receiver.acceptHeader_of_isElementPacket helement
  rw [h.producer_mu] at hslot
  refine ⟨parsed, haccept, ?_, ?_⟩
  · rw [hslot, slotIndex_slotTime]
  · rw [Receiver.bucketKey, h.context_mu, hslot, rotationContext_slotTime, hdirection, h.carrier_eq,
      h.antenna_eq, Producer.Order.slotKey, Producer.Order.key]

end Exchange

/-- The slots of a numerology have rotation contexts that tell slots in flight apart, and that the
sender and the receiver of a packet agree on. -/
structure SharesContexts (mu : Numerology) : Prop where
  /-- The slot counter starts again every second, but the contexts go on in turn. -/
  context_wrapSlot : ∀ slot : ℕ, (rotationContext (mu.wrapSlot slot)).toNat = slot % 4
  context_now : ∀ symbols, (AirClock.now ⟨mu, symbols⟩).context.toNat = symbols / 14 % 4
  nodup : ∀ slot : ℕ,
    ((List.range 4).map fun (j : ℕ) => rotationContext (mu.wrapSlot (slot + j : ℕ))).Nodup
  /-- The wire counts slots within 256 frames. -/
  slotIndex_eq : ∀ slot, mu.slotIndex (mu.slotTime slot) = slot % (2560 * 2 ^ mu.index)
  context_slotIndex : ∀ slot,
    rotationContext (mu.slotIndex (mu.slotTime slot)) = rotationContext slot
  /-- What a receiver reads from the header of a packet, for whatever slot it was sent. -/
  received : ∀ x : Exchange, x.IsOn mu → ∀ packet ∈ x.packets,
    ∃ parsed, Receiver.acceptHeader packet.message = .ok parsed ∧
      mu.slotIndex parsed.header.slotTime = x.order.slot % (2560 * 2 ^ mu.index) ∧
      Receiver.bucketKey x.context parsed = x.order.slotKey
  /-- When a callback has the packets sent, both sides record their sections in the same bucket,
  under the context of the slot that the callback serves. -/
  agreed : ∀ x : Exchange, x.IsOn mu → ∀ (plan : Plan) (s : Scheduler) symbols entry flow,
    s.table.mu = mu →
    x.order = plan.order (s.event (AirClock.now ⟨mu, symbols⟩) entry) flow → ∀ packet ∈ x.packets,
      (∃ parsed, Receiver.acceptHeader packet.message = .ok parsed ∧
        Receiver.bucketKey x.context parsed = x.order.key) ∧
      (x.order.key.context.toNat : ℤ) = ((symbols / 14 : ℕ) + entry.slots) % 4

/-- Rotation contexts never alias, and both sides of the fronthaul agree on them. -/
theorem contexts_shared (mu : Numerology) : SharesContexts mu where
  context_wrapSlot := toNat_rotationContext_wrapSlot mu
  context_now symbols := toNat_rotationContext_wrapSlot mu (symbols / 14)
  nodup := nodup_rotationContext mu
  slotIndex_eq := slotIndex_slotTime mu
  context_slotIndex := rotationContext_slotTime mu
  received _ h _ hmem := h.exists_bucketKey hmem
  agreed := by
    intro x h plan s symbols entry flow hmu horder packet hmem
    obtain ⟨parsed, haccept, -, hkey⟩ := h.exists_bucketKey hmem
    rw [horder] at hkey ⊢
    refine ⟨⟨parsed, haccept, hkey⟩, ?_⟩
    show ((s.event _ entry).context.toNat : ℤ) = _
    rw [Scheduler.context_event hmu, UInt8.toNat_ofNat']
    omega

/-- The packets of a slot beyond the 256 frames that the wire tells apart are taken for those of the
second slot, which has the same context. -/
theorem contexts_shared_beyondWire :
    ∃ packets after, (Producer.buildRange (SpecialSlots.order 5121) SpecialSlots.map (0, 2)).run
        SpecialSlots.producer = (.ok packets, after) ∧ packets.length = 2 ∧
      ∀ packet ∈ packets, ∃ parsed, Receiver.acceptHeader packet.message = .ok parsed ∧
        Numerology.khz30.slotIndex parsed.header.slotTime = 1 ∧
        Receiver.bucketKey SpecialSlots.context parsed = ⟨.dl, 0, 0, 1⟩ := by
  have hbuilt : ((Producer.buildRange (SpecialSlots.order 5121) SpecialSlots.map (0, 2)).run
      SpecialSlots.producer).1.toOption.map List.length = some 2 := by decide +kernel
  rcases hrun : (Producer.buildRange (SpecialSlots.order 5121) SpecialSlots.map (0, 2)).run
      SpecialSlots.producer with ⟨err | packets, after⟩
  · rw [hrun] at hbuilt
    cases hbuilt
  rw [hrun] at hbuilt
  have hon : Exchange.IsOn ⟨SpecialSlots.producer, SpecialSlots.order 5121, SpecialSlots.map,
      (0, 2), packets, after, SpecialSlots.context⟩ .khz30 := ⟨rfl, rfl, rfl, rfl, hrun⟩
  refine ⟨packets, after, rfl, Option.some.inj hbuilt, fun packet hmem => ?_⟩
  obtain ⟨parsed, haccept, hslot, hkey⟩ := (contexts_shared .khz30).received _ hon packet hmem
  have hwire : 5121 % (2560 * 2 ^ Numerology.khz30.index) = 1 := by decide
  have hbucket : (SpecialSlots.order 5121).slotKey = ⟨.dl, 0, 0, 1⟩ := by decide
  exact ⟨parsed, haccept, hslot.trans hwire, hkey.trans hbucket⟩

end OpenFronthaul
