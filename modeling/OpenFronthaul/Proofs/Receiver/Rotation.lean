import OpenFronthaul.Proofs.Producer.Packets
import OpenFronthaul.Proofs.Receiver.Generations
import OpenFronthaul.Proofs.Store.Contexts

/-!
# Slots that share a rotation context

A producer sends the packets of one slot after another, and a receiver that knows the map takes them
in.  Slots that lie a multiple of four apart share a bucket of the receiver.  The receiver counts
sections to tell such slots apart, and the producer may leave elements out in special slots, so the
bucket can hold sections of an earlier slot in front of those of the latest one
(`SpecialSlots.bucket_keeps_leftover`).  When it does follows from the number of sections recorded
before (`Reception.bucket_suffix_own_iff`); it never does where every slot has a section for every
element (`Reception.bucket_eq_own`).
-/

namespace OpenFronthaul

/-! ## The bucket of a slot -/

namespace Receiver

variable {c : FlowContext} {settings : ProducerSettings} {map : PrbMap} {o : Producer.Order}

/-- The bucket of a receiver for the sections of an order. -/
def bucketOf (c : FlowContext) (o : Producer.Order) : SectionKey :=
  ⟨o.flow.direction, c.carrier, c.antenna, rotationContext o.slot⟩

/-- A receiver accepts the header of an element's packet: it is on the slot of the order. -/
lemma acceptHeader_of_isElementPacket {e : PrbElement} {index : ℕ} {packet : Packet}
    (h : Producer.IsElementPacket settings o e index packet) :
    ∃ parsed, acceptHeader packet.message = .ok parsed ∧ parsed.sections = 1 ∧
      parsed.direction = o.flow.direction ∧
      parsed.header.slotTime = settings.mu.slotTime o.slot := by
  obtain ⟨start, symbols, m, segments, -, hmessage, hvalid, hsegments, hwire⟩ := h
  simp only [Producer.elementMessage, bind_eq_ok, pure_eq_ok] at hmessage
  obtain ⟨extensions, -, rfl⟩ := hmessage
  obtain ⟨header, parts, hheader, -, hbytes⟩ := Message.segments_eq_ok hsegments
  obtain ⟨haccept, -⟩ :=
    acceptHeader_encode hvalid hheader (by simp) (parts.flatten.flatMap Segment.bytes)
  rw [← hbytes, ← hwire] at haccept
  exact ⟨_, haccept, rfl, rfl, rfl⟩

/-- The packet of an element has one section, and belongs to the bucket of its order. -/
lemma target?_of_isElementPacket {e : PrbElement} {index : ℕ} {packet : Packet}
    (hmu : c.mu = settings.mu) (h : Producer.IsElementPacket settings o e index packet) :
    target? c packet.message = some (bucketOf c o) ∧ declared? packet.message = some 1 := by
  obtain ⟨parsed, haccept, hsections, hdirection, hslot⟩ := acceptHeader_of_isElementPacket h
  rw [target?, declared?, haccept]
  refine ⟨?_, congrArg some hsections⟩
  have hcontext := rotationContext_slotTime settings.mu o.slot
  simp only [bucketKey, bucketOf, hmu, hdirection, hslot, ← hcontext]

/-! ## Slots in a row -/

/-- What was sent for an order. -/
structure Delivery where
  /-- The order. -/
  order : Producer.Order
  /-- The packets in the order in which they were sent. -/
  packets : List Packet

namespace Delivery

/-- What a receiver gets to decode. -/
def messages (d : Delivery) : List Bytes :=
  d.packets.map Packet.message

/-- A producer with the given settings builds the packets of a delivery from a map.  The state that
it builds them in, and what it did before, is left open. -/
def IsBuilt (settings : ProducerSettings) (map : PrbMap) (d : Delivery) : Prop :=
  ∃ p after, p.settings = settings ∧ (Producer.buildMap d.order map).run p = (.ok d.packets, after)

variable {d : Delivery}

lemma exists_isElementPacket (h : d.IsBuilt settings map) {packet : Packet}
    (hmem : packet ∈ d.packets) :
    0 < map.size ∧ ∃ e index, Producer.IsElementPacket settings d.order e index packet := by
  obtain ⟨p, after, rfl, hrun⟩ := h
  obtain ⟨-, hpackets⟩ := Producer.run_buildMap_eq_ok hrun
  obtain ⟨i, hi, rfl⟩ := List.getElem_of_mem hmem
  have hkept := hpackets.length_eq ▸ hi
  refine ⟨?_, _, _, hpackets.get hkept hi⟩
  have hle := List.length_filter_le
    (fun x => Producer.keeps p.settings d.order x.1) map.elements.zipIdx
  rw [List.length_zipIdx] at hle
  exact (Nat.zero_lt_of_lt hkept).trans_le hle

end Delivery

/-- The messages of some deliveries, one delivery after another. -/
def allMessages (deliveries : List Delivery) : List Bytes :=
  deliveries.flatMap Delivery.messages

lemma single_of_mem_messages {d : Delivery} (hmu : c.mu = settings.mu)
    (h : d.IsBuilt settings map) : ∀ data ∈ d.messages, 0 < map.size ∧ Single data := by
  intro data hdata
  obtain ⟨packet, hmem, rfl⟩ := List.mem_map.mp hdata
  obtain ⟨hsize, e, index, helement⟩ := d.exists_isElementPacket h hmem
  refine ⟨hsize, fun declared hdeclared => ?_⟩
  rw [(target?_of_isElementPacket hmu helement).2] at hdeclared
  exact (Option.some.inj hdeclared).symm

end Receiver

open Receiver

/-- A receiver that took in deliveries, the last one of which is looked at. -/
structure Reception where
  /-- What the receiver knows of the flow. -/
  context : FlowContext
  /-- The store that it started with. -/
  store : SectionStore
  /-- What was delivered before. -/
  earlier : List Delivery
  /-- What was delivered last. -/
  last : Delivery

namespace Reception

/-- The bucket of the last delivery. -/
def key (x : Reception) : SectionKey :=
  bucketOf x.context x.last.order

/-- The receiver when the last delivery comes. -/
def ready (x : Reception) : ReceiveCounts × SectionStore :=
  takeIn x.context (allMessages x.earlier) ({}, x.store)

/-- The sections that earlier deliveries recorded in the bucket. -/
def before (x : Reception) : List Section :=
  historyIn x.context x.key (allMessages x.earlier) ({}, x.store)

/-- The sections that the last delivery recorded in the bucket. -/
def own (x : Reception) : List Section :=
  historyIn x.context x.key x.last.messages x.ready

/-- What the bucket holds in the end. -/
def bucket (x : Reception) : List Section :=
  (takeIn x.context x.last.messages x.ready).2.entries x.key

/-- The deliveries were built from one map, which the receiver knows; it started with a new store. -/
structure IsRegular (x : Reception) (settings : ProducerSettings) (map : PrbMap) : Prop where
  map_eq : x.context.map = some map
  mu_eq : x.context.mu = settings.mu
  store_new : ∃ carriers antennas capacity,
    SectionStore.create carriers antennas capacity = .ok x.store
  earlier_built : ∀ d ∈ x.earlier, d.IsBuilt settings map
  last_built : x.last.IsBuilt settings map

section Bucket

variable {x : Reception} {settings : ProducerSettings} {map : PrbMap}

lemma bucket_eq_generation (h : x.IsRegular settings map) :
    x.bucket = generation map.size (x.before ++ x.own) := by
  have hbuilt : ∀ d ∈ x.earlier ++ [x.last], d.IsBuilt settings map := by
    intro d hd
    rcases List.mem_append.mp hd with hd | hd
    · exact h.earlier_built d hd
    · rw [List.mem_singleton.mp hd]
      exact h.last_built
  have hsingle : ∀ data ∈ allMessages x.earlier ++ x.last.messages,
      0 < map.size ∧ Single data := by
    intro data hdata
    have hall : allMessages x.earlier ++ x.last.messages = allMessages (x.earlier ++ [x.last]) := by
      simp [allMessages]
    obtain ⟨d, hd, hdata⟩ := List.mem_flatMap.mp (hall ▸ hdata)
    exact single_of_mem_messages h.mu_eq (hbuilt d hd) data hdata
  obtain ⟨carriers, antennas, capacity, hstore⟩ := h.store_new
  have hnew : x.store.entries x.key = generation map.size [] := by
    rw [SectionStore.entries_create hstore, generation, List.drop_nil]
  have hbucket : x.bucket =
      (takeIn x.context (allMessages x.earlier ++ x.last.messages) ({}, x.store)).2.entries x.key := by
    rw [bucket, ready, takeIn, takeIn, takeIn, List.foldl_append]
  have hhistory : x.before ++ x.own =
      historyIn x.context x.key (allMessages x.earlier ++ x.last.messages) ({}, x.store) :=
    (historyIn_append _ _ _).symm
  rw [hbucket, hhistory]
  -- a map without elements has no packets, so its generations need no size
  rcases hmessages : allMessages x.earlier ++ x.last.messages with _ | ⟨data, messages⟩
  · exact hnew
  · have hsize := (hsingle data (hmessages ▸ List.mem_cons_self)).1
    rw [← hmessages]
    exact entries_takeIn (r := ({}, x.store)) h.map_eq hsize
      (fun data hdata => (hsingle data hdata).2) hnew

/-- Where every slot of the bucket recorded a section for every element, the bucket holds the
sections of the last one. -/
theorem bucket_eq_own (h : x.IsRegular settings map) (hbefore : map.size ∣ x.before.length)
    (hown : x.own.length = map.size) : x.bucket = x.own := by
  rw [bucket_eq_generation h, generation_of_full hbefore hown]

/-- The bucket of a slot holds the last generation of all sections that were recorded in it.  It is
left with sections of the slot alone exactly when that generation does not start among the sections
of earlier slots. -/
theorem bucket_suffix_own_iff (h : x.IsRegular settings map) :
    x.own ⊆ x.last.messages.flatMap (readable x.context) ∧
      x.bucket = generation map.size (x.before ++ x.own) ∧
      (x.bucket <:+ x.own ↔
        x.before.length ≤ (x.before.length + x.own.length - 1) / map.size * map.size) := by
  have hbucket := bucket_eq_generation h
  refine ⟨historyIn_subset _ _, hbucket, ?_⟩
  rw [hbucket]
  exact generation_suffix_iff

end Bucket

end Reception

/-! ## Two special slots -/

namespace SpecialSlots

/-- Downlink symbols, then guard symbols, and uplink symbols from the twelfth on. -/
def pattern (downlink : ℕ) : SlotPattern :=
  Vector.ofFn fun i => if i.val < downlink then .dl else if i.val < 12 then .guard else .ul

/-- Two special slots with six and ten downlink symbols, and a downlink slot. -/
def settings : ProducerSettings where
  mu := .khz30
  tagging := .untagged
  framer := {}
  frame :=
    { mu := .khz30, duplex := .tdd
      slots := [.ofPattern (pattern 6), .ofPattern (pattern 10), .ofPattern (pattern 14)]
      dlRate := ⟨3, 3⟩, ulRate := ⟨2, 3⟩ }
  mtu := 1500

/-- An element on the first ten symbols of a slot and one on the last four. -/
def map : PrbMap where
  direction := .dl
  elements :=
    [{ startPrb := 0, numPrb := 50, startSymbol := 0, numSymbols := 10 },
      { startPrb := 50, numPrb := 50, startSymbol := 10, numSymbols := 4 }]

/-- A new store for one flow. -/
def store : SectionStore :=
  ⟨1, 1, 4, Vector.replicate _ (.blank 4)⟩

/-- The order for a slot. -/
def order (slot : ℕ) : Producer.Order :=
  ⟨⟨.dl, 0, 0⟩, slot, .a, rotationContext slot⟩

/-- A new producer. -/
def producer : Producer where
  settings := settings
  store := store

/-- The section of the first element in a slot that leaves it so many symbols. -/
def info (symbols : UInt8) : Section :=
  { numPrb := 50, numSymbols := symbols, iqWidth := 16, reMask := 0xfff }

/-- The producer when it has built the first slot. -/
def warm : Producer :=
  { producer with
    store := ((store.add (order 0).key
      { info 6 with elementBegin := true, elementEnd := true }).toOption).getD store
    sequences := producer.sequences.insert ⟨.dl, 0, 0⟩ (producer.nextSequence ⟨.dl, 0, 0⟩ + 1)
    counts := ⟨1, 1, 1⟩ }

/-- What the receiver knows of the flow. -/
def context : FlowContext :=
  { mu := .khz30, carrier := 0, antenna := 0, map := some map }

/-- A receiver of the first slot and of the fifth. -/
def reception (first last : List Packet) : Reception :=
  ⟨context, store, [⟨order 0, first⟩], ⟨order 4, last⟩⟩

/-- The message of the first slot. -/
def firstMessage : Bytes :=
  [144, 0, 0, 0, 1, 1, 0, 0, 0, 0, 0, 50, 255, 246, 0, 0]

/-- The message of the fifth slot. -/
def lastMessage : Bytes :=
  [144, 0, 32, 0, 1, 1, 0, 0, 0, 0, 0, 50, 255, 250, 0, 0]

/-- Each of the two slots has one packet, since the second element is left out of both. -/
lemma exists_packets :
    ∃ first last after,
      (Producer.buildMap (order 0) map).run producer = (.ok first, warm) ∧
      (Producer.buildMap (order 4) map).run warm = (.ok last, after) ∧
      first.map Packet.message = [firstMessage] ∧ last.map Packet.message = [lastMessage] :=
  ⟨_, _, _, rfl, rfl, rfl, rfl⟩

lemma isRegular_reception {first last : List Packet} {after : Producer}
    (hfirst : (Producer.buildMap (order 0) map).run producer = (.ok first, warm))
    (hlast : (Producer.buildMap (order 4) map).run warm = (.ok last, after)) :
    (reception first last).IsRegular settings map where
  map_eq := rfl
  mu_eq := rfl
  store_new := ⟨1, 1, 4, rfl⟩
  earlier_built := by
    intro d hd
    rw [List.mem_singleton.mp hd]
    exact ⟨producer, warm, rfl, hfirst⟩
  last_built := ⟨warm, after, rfl, hlast⟩

/-- The receiver when the fifth slot comes. -/
def halfway : ReceiveCounts × SectionStore :=
  takeIn context [firstMessage] ({}, store)

lemma historyIn_first :
    historyIn context (bucketOf context (order 4)) [firstMessage] ({}, store) = [info 6] := by
  decide +kernel

lemma historyIn_last :
    historyIn context (bucketOf context (order 4)) [lastMessage] halfway = [info 10] := by
  decide +kernel

lemma entries_last :
    (takeIn context [lastMessage] halfway).2.entries (bucketOf context (order 4)) =
      [info 6, info 10] := by
  decide +kernel

section Packets

variable {first last : List Packet} (hfirst : first.map Packet.message = [firstMessage])
  (hlast : last.map Packet.message = [lastMessage])

include hfirst

lemma ready_reception : (reception first last).ready = halfway := by
  have hall : allMessages (reception first last).earlier = first.map Packet.message ++ [] := rfl
  rw [Reception.ready, hall, hfirst]
  rfl

lemma before_reception : (reception first last).before = [info 6] := by
  have hall : allMessages (reception first last).earlier = first.map Packet.message ++ [] := rfl
  rw [Reception.before, hall, hfirst]
  exact historyIn_first

include hlast

lemma own_reception : (reception first last).own = [info 10] := by
  have hmessages : (reception first last).last.messages = [lastMessage] := hlast
  rw [Reception.own, ready_reception hfirst, hmessages]
  exact historyIn_last

lemma bucket_reception : (reception first last).bucket = [info 6, info 10] := by
  have hmessages : (reception first last).last.messages = [lastMessage] := hlast
  rw [Reception.bucket, ready_reception hfirst, hmessages]
  exact entries_last

end Packets

/-- The two special slots are a case of `Reception.bucket_suffix_own_iff`, with one section each. -/
theorem bucket_suffix_own_iff_reception :
    ∃ x : Reception, x.IsRegular settings map ∧ x.before.length = 1 ∧ x.own.length = 1 ∧
      (x.bucket <:+ x.own ↔ 1 ≤ (1 + 1 - 1) / map.size * map.size) := by
  obtain ⟨first, last, after, hfirst, hlast, hmessage, hmessage'⟩ := exists_packets
  have hregular := isRegular_reception hfirst hlast
  have hbefore : (reception first last).before.length = 1 := by
    rw [before_reception hmessage]
    rfl
  have hown : (reception first last).own.length = 1 := by
    rw [own_reception hmessage hmessage']
    rfl
  obtain ⟨-, -, hiff⟩ := Reception.bucket_suffix_own_iff hregular
  rw [hbefore, hown] at hiff
  exact ⟨reception first last, hregular, hbefore, hown, hiff⟩

/-- After two special slots of one rotation context the bucket has two sections under one id, the
first of which no packet of the later slot carried. -/
theorem bucket_keeps_leftover :
    FrameStructure.tdd .khz30 [pattern 6, pattern 10, pattern 14] = .ok settings.frame ∧
      PrbMap.create .dl map.elements = .ok map ∧
      ∃ first last after,
        (Producer.buildMap (order 0) map).run producer = (.ok first, warm) ∧
        (Producer.buildMap (order 4) map).run warm = (.ok last, after) ∧
        (reception first last).bucket = [info 6, info 10] ∧
        (reception first last).last.messages.flatMap (readable context) = [info 10] := by
  refine ⟨rfl, rfl, ?_⟩
  obtain ⟨first, last, after, hfirst, hlast, hmessage, hmessage'⟩ := exists_packets
  refine ⟨first, last, after, hfirst, hlast, bucket_reception hmessage hmessage', ?_⟩
  have hmessages : (reception first last).last.messages = [lastMessage] := hmessage'
  rw [hmessages]
  decide +kernel

end SpecialSlots

end OpenFronthaul
