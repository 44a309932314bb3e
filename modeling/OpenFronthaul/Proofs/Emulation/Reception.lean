import OpenFronthaul.Proofs.Emulation.Parts
import OpenFronthaul.Proofs.Receiver.Locality

/-!
# Packets that are received without failures

The radio unit goes by the plan that the packets were made by.  When the elements have no weights,
whose number the radio unit would not know, it can read the packet of every element, and finds room
for its section: a bucket that has as many sections as the map has elements is emptied first.  So
every packet of the distributed unit is counted with one section and without a failure
(`RadioUnit.sound_receive`).
-/

namespace OpenFronthaul

/-! ## Packets of elements without weights -/

namespace Producer

variable {settings : ProducerSettings} {o : Order} {e : PrbElement} {index : ℕ} {packet : Packet}

/-- The header of a packet is read with the bits of its flow that the layout keeps. -/
lemma IsFramed.exists_parse {sequence : UInt8} (h : IsFramed settings o sequence e index packet)
    (hlayout : settings.framer.layout.totalBits ≤ 16) :
    ∃ header id, settings.framer.parse packet.wire = .ok (header, id) ∧
      id.carrier = EaxcLayout.keep o.flow.carrier settings.framer.layout.carrierBits ∧
      id.antenna = EaxcLayout.keep o.flow.antenna settings.framer.layout.antennaBits := by
  obtain ⟨start, count, m, segments, pooled, -, -, -, -, hframed⟩ := h
  obtain ⟨header, hheader, hwire, -⟩ := addHeader_eq_ok hframed
  exact (Ecpri.Framer.parse_frame hlayout (bind_eq_ok.mpr ⟨header, hheader, hwire ▸ rfl⟩)).2

/-- The message of an element does not tell the carrier and the antenna. -/
lemma IsElementPacket.for_flow (h : IsElementPacket settings o e index packet)
    (carrier antenna : UInt8) : IsElementPacket settings
      { o with flow := ⟨o.flow.direction, carrier, antenna⟩ } e index packet :=
  h

/-- An extension that stands in a chain that was written was written. -/
lemma exists_encode_of_mem {x : Extension} {extensions : List Extension} {segments : List Segment}
    (h : Message.encodeChain extensions = .ok segments) (hx : x ∈ extensions) :
    ∃ more encoded, x.encode more = .ok encoded := by
  induction extensions generalizing segments with
  | nil => cases hx
  | cons y rest ih =>
    simp only [Message.encodeChain, bind_eq_ok, pure_eq_ok] at h
    obtain ⟨encoded, hencoded, others, hothers, -⟩ := h
    rcases List.mem_cons.mp hx with rfl | hx
    · exact ⟨_, encoded, hencoded⟩
    · exact ih hothers hx

/-- A packet with weights has some. -/
lemma IsElementPacket.weights_ne (h : IsElementPacket settings o e index packet)
    (hsends : o.category = .b ∧ e.weightUpdate = true) : e.weights ≠ {} := by
  intro hnone
  obtain ⟨start, count, m, segments, -, hmessage, -, hsegments, -⟩ := h
  simp only [elementMessage, bind_eq_ok, pure_eq_ok] at hmessage
  obtain ⟨extensions, hextensions, rfl⟩ := hmessage
  obtain ⟨header, parts, -, hparts, -⟩ := Message.segments_eq_ok hsegments
  simp only [List.mapM_cons, List.mapM_nil, bind_eq_ok, pure_eq_ok] at hparts
  obtain ⟨part, hpart, -⟩ := hparts
  simp only [Message.encodeSection, bind_eq_ok, pure_eq_ok] at hpart
  obtain ⟨_, -, _, -, others, hothers, -⟩ := hpart
  have hweights : .beamWeights ⟨0, .none, []⟩ ∈ extensions := by
    rw [elementExtensions, if_pos hsends, hnone, weightExtension, if_pos (by rfl)] at hextensions
    obtain rfl := pure_eq_ok.mp hextensions
    exact List.mem_append_right _ (List.mem_singleton_self _)
  obtain ⟨more, encoded, hencoded⟩ := exists_encode_of_mem hothers hweights
  cases hencoded

end Producer

/-! ## The radio unit -/

/-- A plan by which the radio unit can read and record every packet. -/
structure Plan.Legible (plan : Plan) : Prop where
  layout_le : plan.framer.layout.totalBits ≤ 16
  usable : ∀ d, ∀ e ∈ (plan.map d).elements, e.Usable
  weights_eq : ∀ d, ∀ e ∈ (plan.map d).elements, e.weights = {}
  size_le : ∀ d, (plan.map d).size ≤ defaultBucketCapacity

namespace RadioUnit

variable {plan : Plan} {unit : RadioUnit}

/-- A radio unit that received one section with every packet. -/
structure Sound (plan : Plan) (unit : RadioUnit) : Prop where
  carriers_eq : unit.store.carriers = plan.config.carriers.toNat
  antennas_eq : unit.store.antennas = plan.config.antennas.toNat
  capacity_eq : unit.store.capacity = defaultBucketCapacity
  sections_eq : unit.counts.sections = unit.counts.packets
  failures_eq : unit.counts.failures = 0

/-- A bucket that is not taken for one of an earlier slot has room for one more element. -/
lemma length_base_lt {c : FlowContext} {map : PrbMap} {store : SectionStore} {key : SectionKey}
    (hmap : c.map = some map) (hpos : 0 < map.size) :
    (Receiver.base c store key).length < map.size := by
  rw [Receiver.base, hmap]
  dsimp only
  split_ifs with hstale
  · exact hpos
  · exact Nat.lt_of_not_le hstale

/-- The radio unit can read the section of every packet that is made by the plan. -/
lemma readable_of_legible (hplan : plan.Legible) {d : Direction} {x : PrbElement × ℕ}
    (hx : x ∈ (plan.map d).elements.zipIdx) {c : FlowContext} {o : Producer.Order}
    (hfollows : c.Follows plan.settings o) (hplain : c.usesMap = false) {packet : Packet}
    (hpacket : Producer.IsElementPacket plan.settings o x.1 x.2 packet) :
    Receiver.readable c packet.message ≠ [] := by
  have hweights := hplan.weights_eq d x.1 (List.fst_mem_of_mem_zipIdx hx)
  have husable := hplan.usable d x.1 (List.fst_mem_of_mem_zipIdx hx)
  refine Receiver.readable_ne_nil_of_knows husable (fun _ => ?_) (fun hsends => ?_) hfollows hplain
    hpacket
  · rw [hweights]
    exact ⟨fun _ => rfl, fun hbundles => absurd rfl hbundles⟩
  · exact absurd hweights (hpacket.weights_ne hsends)

/-- A packet of the distributed unit is counted with its section. -/
theorem sound_receive (hplan : plan.Legible) (h : unit.Sound plan) {d : Direction} {wire : Bytes}
    (hsent : plan.IsSent d wire) :
    (unit.receive plan wire).Sound plan ∧
      (unit.receive plan wire).counts.packets = unit.counts.packets + 1 := by
  obtain ⟨event, flow, hflow, x, hx, packet, sequence, rfl, hframed⟩ := hsent
  obtain ⟨header, id, hparse, hcarrier, hantenna⟩ := hframed.exists_parse hplan.layout_le
  obtain ⟨rfl, hcarriers, hantennas⟩ := Plan.mem_flows_iff.mp hflow
  have helement := hframed.isElementPacket
  let c := context plan id packet.message
  -- the radio unit sees the flow that the layout leaves of the one that the packet was built for
  let o : Producer.Order :=
    { plan.order event flow with flow := ⟨flow.direction, id.carrier, id.antenna⟩ }
  have hpacket := helement.for_flow id.carrier id.antenna
  have hmap : c.map = some (plan.map flow.direction) := by
    have hdirection := packetDirection_of_isElementPacket helement
    exact congrArg (fun d => some (plan.map d)) hdirection
  have hfollows : c.Follows plan.settings o := ⟨rfl, rfl, rfl, rfl⟩
  have hreadable := readable_of_legible hplan hx hfollows rfl hpacket
  obtain ⟨htarget, hone⟩ := Receiver.target?_of_isElementPacket hfollows.mu_eq hpacket
  have hkey : unit.store.hasKey (Receiver.bucketOf c o) = true := by
    refine SectionStore.hasKey_iff.mpr ⟨rotationContext_lt o.slot, ?_, ?_⟩
    · rw [h.carriers_eq]
      exact (hcarrier ▸ EaxcLayout.keep_le _ _).trans_lt hcarriers
    · rw [h.antennas_eq]
      exact (hantenna ▸ EaxcLayout.keep_le _ _).trans_lt hantennas
  have hroom : (Receiver.base c unit.store (Receiver.bucketOf c o)).length <
      unit.store.capacity := by
    rw [h.capacity_eq]
    refine (length_base_lt hmap ?_).trans_le (hplan.size_le flow.direction)
    exact List.length_pos_of_mem (List.fst_mem_of_mem_zipIdx hx)
  have hupdates := (Receiver.decode_single_iff htarget hone hkey hroom unit.counts).2 hreadable
  obtain ⟨hpackets, hsections, hfailures⟩ :=
    Receiver.counts_of_readable htarget hone hkey hroom unit.counts hreadable
  have hreceive : unit.receive plan packet.wire =
      ⟨(Receiver.decode c packet.message unit.counts unit.store).2.2,
        (Receiver.decode c packet.message unit.counts unit.store).2.1⟩ := by
    have hfollowed : plan.framer.parse packet.wire = .ok (header, id) := hparse
    rw [receive, hfollowed]
    rfl
  rw [hreceive]
  refine ⟨⟨?_, ?_, ?_, ?_, ?_⟩, hpackets⟩
  · exact hupdates.carriers_eq.trans h.carriers_eq
  · exact hupdates.antennas_eq.trans h.antennas_eq
  · exact hupdates.capacity_eq.trans h.capacity_eq
  · exact hsections.trans ((congrArg (· + 1) h.sections_eq).trans hpackets.symm)
  · exact hfailures.trans h.failures_eq

end RadioUnit

end OpenFronthaul
