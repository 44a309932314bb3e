import OpenFronthaul.Proofs.Producer.Scheduling

/-!
# What the packets of a map say

A packet of a map is a header of its flow with the message of one element behind it.  What a
receiver reads of it is written out from the element (`PrbElement.received`), and it is all that the
element asks for (`Producer.buildMap_conveys`): every part on the way, from the choice of extensions
to the size in the header, hands on what it is given.
-/

namespace OpenFronthaul

/-! ## Elements as a receiver knows them -/

/-- The sample width as it is read: none, and more than sixteen bits, come back as sixteen. -/
def SampleWidth.received (width : UInt8) : UInt8 :=
  if width.toNat = 0 ∨ 16 ≤ width.toNat then 16 else width

lemma SampleWidth.ofWire_toWire_eq (width : UInt8) :
    ofWire (toWire width) = received width := by
  rw [received]
  split_ifs with h
  · have hzero : toWire width = 0 := by
      rw [toWire]
      split_ifs
      · rfl
      · omega
    rw [hzero]
    rfl
  · exact ofWire_toWire (by omega) (by omega)

namespace ElementWeights

/-- One vector has the weights that it is said to have, and a buffer exactly the bundles. -/
structure WellSized (w : ElementWeights) : Prop where
  vector : w.bundlePrbs.toNat = 0 → w.weights.length = w.count.toNat
  bundles : w.bundlePrbs.toNat ≠ 0 → ∀ payload ∈ w.bundles, ∀ length,
    WeightBundles.bundleLength w.count.toNat w.width w.bundleMethod = .ok length →
      payload.bytes.length = w.bundleCount.toNat * length

/-- The extension with the weights of an element, as a receiver knows it. -/
def received (w : ElementWeights) : Extension :=
  if w.bundlePrbs.toNat = 0 then .beamWeights ⟨w.width, w.coding, w.weights⟩
  else .weightBundles
    { bundlePrbs := w.bundlePrbs, method := w.bundleMethod, width := w.width
      count := w.bundleCount, payload := ⟨0, (w.bundles.map SharedBuffer.bytes).getD []⟩ }

end ElementWeights

namespace PrbElement

/-- The extensions of an element as a receiver knows them. -/
def receivedExtensions (e : PrbElement) (category : Category) : List Extension :=
  (if e.compression = .modulation then [.modulationScaling ⟨e.shifted, e.scaler⟩] else [])
    ++ if category = .b ∧ e.weightUpdate then [e.weights.received] else []

/-- The message of an element on some symbols of a slot, as a receiver knows it that has been told
the resource blocks of the carrier, or has not. -/
def received (e : PrbElement) (direction : Direction) (time : SlotTime) (category : Category)
    (index start count : ℕ) (carrierPrbs : Option UInt16) : Message where
  direction
  type := .regular
  header :=
    { frame := time.frame
      subframe := time.subframe
      slot := time.slot
      startSymbol := UInt8.ofNat start
      compression := e.compression
      iqWidth := SampleWidth.received e.iqWidth }
  sections :=
    [⟨{ id := UInt16.ofNat index
        startPrb := e.startPrb
        numPrb := if 255 < e.numPrb.toNat then carrierPrbs.getD 0 else e.numPrb
        allPrbs := 255 < e.numPrb.toNat
        startSymbol := UInt8.ofNat start
        numSymbols := UInt8.ofNat count
        reMask := 0xfff
        beamId := e.beam
        compression := e.compression
        iqWidth := SampleWidth.received e.iqWidth
        extended := !(e.receivedExtensions category).isEmpty },
      e.receivedExtensions category⟩]

end PrbElement

namespace Producer

variable {p after : Producer} {o : Order} {settings : ProducerSettings}

/-! ## Messages -/

section Messages

variable {e : PrbElement} {category : Category} {mtu : ℕ}

lemma weightExtension_eq_ok {w : ElementWeights} {x : Extension} (hsized : w.WellSized)
    (h : weightExtension w mtu = .ok x) :
    x.received = w.received ∧ x.Delimited (some w.count) := by
  rw [weightExtension] at h
  rw [ElementWeights.received]
  split_ifs at h ⊢ with hbundles
  · obtain rfl := pure_eq_ok.mp h
    exact ⟨rfl, w.count, rfl, hsized.vector hbundles⟩
  · rcases hpayload : w.bundles with _ | payload
    · rw [hpayload] at h
      cases h
    · rw [hpayload] at h
      simp only [bind_eq_ok, check_eq_ok, pure_eq_ok, WeightBundles.maxBundles] at h
      obtain ⟨_, ⟨length, hlength, -⟩, -, rfl⟩ := h
      refine ⟨rfl, WeightBundles.Exact.delimited ?_⟩
      exact ⟨length, hlength, hsized.bundles hbundles payload hpayload length hlength⟩

lemma elementExtensions_eq_ok {extensions : List Extension} {weights : Option UInt16}
    (hsized : e.weightUpdate = true → e.weights.WellSized)
    (hknown : category = .b ∧ e.weightUpdate = true → weights = some e.weights.count)
    (h : elementExtensions e category mtu = .ok extensions) :
    extensions.map Extension.received = e.receivedExtensions category ∧
      ∀ x ∈ extensions, x.Delimited weights := by
  generalize hscaling : (if e.compression = .modulation
    then [Extension.modulationScaling ⟨e.shifted, e.scaler⟩] else []) = scaling
  have hplain : scaling.map Extension.received = scaling ∧
      ∀ x ∈ scaling, x.Delimited weights := by
    rw [← hscaling]
    split_ifs
    · exact ⟨rfl, by simp [Extension.Delimited]⟩
    · exact ⟨rfl, by simp⟩
  obtain ⟨hreceived, hdelimited⟩ := hplain
  rw [elementExtensions] at h
  rw [PrbElement.receivedExtensions]
  rw [hscaling] at h ⊢
  split_ifs at h ⊢ with hweights
  · simp only [bind_eq_ok, pure_eq_ok] at h
    obtain ⟨x, hx, rfl⟩ := h
    obtain ⟨hsame, hends⟩ := weightExtension_eq_ok (hsized hweights.2) hx
    rw [← hknown hweights] at hends
    refine ⟨by rw [List.map_append, hreceived, List.map_singleton, hsame], ?_⟩
    intro y hy
    rcases List.mem_append.mp hy with hy | hy
    · exact hdelimited y hy
    · rw [List.mem_singleton.mp hy]
      exact hends
  · obtain rfl := pure_eq_ok.mp h
    exact ⟨by rw [hreceived, List.append_nil], hdelimited⟩

/-- What is read of the message of an element is written out from the element, to a receiver that
knows how many weights a vector has where the message carries some. -/
lemma elementMessage_eq_ok {direction : Direction} {slot index start count : ℕ} {m : Message}
    {weights : Option UInt16} (he : e.Usable) (hsized : e.weightUpdate = true → e.weights.WellSized)
    (hknown : category = .b ∧ e.weightUpdate = true → weights = some e.weights.count)
    (h : elementMessage settings direction slot category e index start count = .ok m) :
    m.Legible weights ∧ ∀ carrierPrbs, m.onWire carrierPrbs =
      e.received direction (settings.mu.slotTime slot) category index start count carrierPrbs := by
  simp only [elementMessage, bind_eq_ok, pure_eq_ok] at h
  obtain ⟨extensions, hextensions, rfl⟩ := h
  obtain ⟨hreceived, hdelimited⟩ := elementExtensions_eq_ok hsized hknown hextensions
  refine ⟨⟨by simp, ?_, ?_⟩, fun carrierPrbs => ?_⟩
  · exact List.forall_mem_singleton.mpr (.inr he.numPrb_pos)
  · exact List.forall_mem_singleton.mpr hdelimited
  · simp only [Message.onWire, MessageHeader.onWire, MessageHeader.received, reduceCtorEq, if_false,
      SampleWidth.ofWire_toWire_eq, List.map_singleton, ExtendedSection.received,
      ExtendedSection.create, Section.received, Section.usesSentinel, elementSection, Bool.false_or,
      PrbElement.received, ← hreceived, List.isEmpty_map]
    simp

end Messages

/-! ## Packets -/

/-- A packet tells the receiver of its flow all that an element asks for. -/
structure Conveys (settings : ProducerSettings) (o : Order) (sequence : ℕ) (e : PrbElement)
    (index : ℕ) (packet : Packet) : Prop where
  framed : ∃ header id, settings.framer.parse packet.wire = .ok (header, id) ∧
    header.payloadSize + 4 = packet.length ∧ header.sequence.toNat = sequence ∧
    id.carrier = o.flow.carrier ∧ id.antenna = o.flow.antenna
  fits : packet.length + WeightBundles.ethernetLength ≤ settings.mtu
  index_lt : index < PrbMap.maxElements
  message : ∃ start count, 0 < count ∧ start + count ≤ symbolsPerSlot ∧
    (∀ i, start ≤ i ∧ i < start + count ↔ Leaves settings.frame o.flow.direction o.slot e i) ∧
    ∀ c : FlowContext, c.tagging = settings.tagging → c.weights = some e.weights.count →
      c.usesMap = false → ∀ counts, (Receiver.parse c packet.message counts).1 =
        .ok (e.received o.flow.direction (settings.mu.slotTime o.slot) o.category index start count
          c.carrierPrbs)

lemma IsFramed.conveys {sequence : UInt8} {e : PrbElement} {index : ℕ} {packet : Packet}
    (h : IsFramed settings o sequence e index packet) (he : e.Usable)
    (hindex : index < PrbMap.maxElements)
    (hsized : e.weightUpdate = true → e.weights.WellSized)
    (hlayout : settings.framer.layout.validate = .ok ())
    (hcarrier : o.flow.carrier.toNat < 2 ^ settings.framer.layout.carrierBits.toNat)
    (hantenna : o.flow.antenna.toNat < 2 ^ settings.framer.layout.antennaBits.toNat) :
    Conveys settings o sequence.toNat e index packet := by
  obtain ⟨start, count, m, segments, pooled, hsymbols, hmessage, hvalid, hsegments, hframed⟩ := h
  obtain ⟨header, hheader, hwire, hfits⟩ := addHeader_eq_ok hframed
  obtain ⟨hlength, hparse⟩ := Ecpri.parse_setPayloadSize hheader
  obtain ⟨hlegible, honWire⟩ := elementMessage_eq_ok he hsized (fun _ => rfl) hmessage
  obtain ⟨hpos, hrange⟩ := elementSymbols_eq_some he hsymbols
  have hbits : settings.framer.layout.totalBits ≤ 16 := by
    rw [EaxcLayout.validate, guard_eq_ok, not_lt] at hlayout
    exact hlayout.1
  refine ⟨?_, hfits, hindex, start, count, hpos, elementSymbols_le he hsymbols, hrange, ?_⟩
  · rw [EaxcLayout.decompose_compose hbits, ← hwire, EaxcLayout.keep_of_lt hcarrier,
      EaxcLayout.keep_of_lt hantenna] at hparse
    refine ⟨_, _, hparse, ?_, rfl, rfl, rfl⟩
    rw [← Packet.length_wire, hwire, List.length_append, hlength, Ecpri.headerLength]
    dsimp only
    omega
  · intro c htagging hweights hmap counts
    rw [← htagging] at hsegments
    rw [← hweights] at hlegible
    have hread := Receiver.yields_readMessage hmap hvalid hsegments hlegible []
    rw [List.append_nil] at hread
    rw [message_addHeader hframed, ← honWire]
    exact (hread.parse_eq counts).1

/-- The packets of a map: one for each element that the slot leaves symbols, in order, with the next
sequence numbers of the flow, and with all that the element asks for. -/
theorem buildMap_conveys {direction : Direction} {elements : List PrbElement} {map : PrbMap}
    {packets : List Packet} (hlayout : p.settings.framer.layout.validate = .ok ())
    (hcarrier : o.flow.carrier.toNat < 2 ^ p.settings.framer.layout.carrierBits.toNat)
    (hantenna : o.flow.antenna.toNat < 2 ^ p.settings.framer.layout.antennaBits.toNat)
    (hmap : PrbMap.create direction elements = .ok map)
    (hsized : ∀ e ∈ map.elements, e.weightUpdate = true → e.weights.WellSized)
    (h : (buildMap o map).run p = (.ok packets, after)) :
    List.Forall₂
        (fun x packet =>
          Conveys p.settings o (((p.nextSequence o.flow).toNat + x.2) % 256) x.1.1 x.1.2 packet)
        (map.elements.zipIdx.filter fun x => keeps p.settings o x.1).zipIdx packets ∧
      (∀ e ∈ map.elements, keeps p.settings o e = true ↔
        ∃ i, Leaves p.settings.frame o.flow.direction o.slot e i) ∧
      Passes o p after map.size packets.length := by
  obtain ⟨hpasses, hpackets⟩ := run_buildMap_framed h
  obtain ⟨-, husable⟩ := PrbMap.create_eq_ok hmap
  refine ⟨?_, fun e he => keeps_iff (husable e he), hpasses⟩
  have hmem : ∀ x ∈ (map.elements.zipIdx.filter fun x => keeps p.settings o x.1).zipIdx,
      x.1 ∈ map.elements.zipIdx :=
    fun x hx => List.mem_of_mem_filter (List.fst_mem_of_mem_zipIdx hx)
  refine ((List.forall₂_and_left _ _).mpr ⟨hmem, hpackets⟩).imp ?_
  rintro ⟨⟨e, index⟩, place⟩ packet ⟨hmem, hpacket⟩
  obtain ⟨he, hindex⟩ := PrbMap.usable_of_mem_zipIdx hmap hmem
  have hconveys := hpacket.conveys he hindex (hsized e (List.fst_mem_of_mem_zipIdx hmem)) hlayout
    hcarrier hantenna
  rw [UInt8.toNat_add, UInt8.toNat_ofNat', Nat.add_mod_mod] at hconveys
  exact hconveys

/-! ## Elements with weights -/

namespace MixedSlot

/-- An element with modulation scaling and one vector of weights. -/
def modulated : PrbElement where
  numPrb := 300
  startSymbol := 6
  numSymbols := 8
  weightUpdate := true
  compression := .modulation
  iqWidth := 0
  scaler := 5
  weights := { count := 1, width := 16, weights := [⟨1, -1⟩] }

/-- An element with two bundles of weights in a shared buffer. -/
def bundled : PrbElement where
  startPrb := 100
  numPrb := 20
  startSymbol := 10
  numSymbols := 4
  weightUpdate := true
  weights :=
    { bundlePrbs := 10, count := 1, width := 16, bundleCount := 2
      bundles := some ⟨1, [0, 3, 0, 1, 0, 2, 0, 4, 0, 3, 0, 4]⟩ }

/-- The order for the uplink of a slot of a radio unit that processes beams. -/
def beamOrder : Order :=
  { order with category := .b }

/-- Both elements are sent with their weights, one packet after the other. -/
theorem buildMap_conveys_weights :
    ∃ first second after,
      (buildMap beamOrder ⟨.ul, [modulated, bundled]⟩).run producer = (.ok [first, second], after) ∧
      modulated.weights.WellSized ∧ bundled.weights.WellSized ∧
      Conveys producer.settings beamOrder 0 modulated 0 first ∧
      Conveys producer.settings beamOrder 1 bundled 1 second := by
  have hok : ((buildMap beamOrder ⟨.ul, [modulated, bundled]⟩).run producer).1.isOk = true := by
    decide +kernel
  obtain ⟨packets, after, hrun⟩ := exists_run_eq_ok hok
  have hvector : modulated.weights.WellSized := ⟨fun _ => rfl, fun h => absurd rfl h⟩
  have hbundles : bundled.weights.WellSized := by
    refine ⟨by decide, ?_⟩
    rintro - _ ⟨⟩ length hlength
    cases hlength
    rfl
  obtain ⟨hpackets, -⟩ := buildMap_conveys rfl (by decide) (by decide)
    (show PrbMap.create .ul [modulated, bundled] = .ok ⟨.ul, [modulated, bundled]⟩ from rfl)
    (List.forall_mem_cons.mpr ⟨fun _ => hvector, List.forall_mem_singleton.mpr fun _ => hbundles⟩)
    hrun
  have hkept : ([modulated, bundled].zipIdx.filter fun x =>
      keeps producer.settings beamOrder x.1).zipIdx =
        [((modulated, 0), 0), ((bundled, 1), 1)] := by decide
  have hsequence : (producer.nextSequence beamOrder.flow).toNat = 0 :=
    congrArg UInt8.toNat Std.HashMap.getD_empty
  rw [hkept, hsequence, List.forall₂_cons_left_iff] at hpackets
  obtain ⟨first, _, hfirst, hrest, rfl⟩ := hpackets
  obtain ⟨second, _, hsecond, hnil, rfl⟩ := List.forall₂_cons_left_iff.mp hrest
  obtain rfl := List.forall₂_nil_left_iff.mp hnil
  exact ⟨first, second, after, hrun, hvector, hbundles, hfirst, hsecond⟩

end MixedSlot

end Producer

end OpenFronthaul
