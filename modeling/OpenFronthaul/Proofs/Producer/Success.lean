import OpenFronthaul.Proofs.Producer.Failures
import OpenFronthaul.Proofs.Producer.Locality
import OpenFronthaul.Proofs.Receiver.Rotation

/-!
# Building without failures

On paired spectrum every slot leaves an element all of its symbols, and what is written for it in
one slot differs from what is written in another one in the name of the slot alone.  So an element
that was built once is built for every slot, every flow of its direction and every sequence number
(`Builds.isFramed`), and elements that are built by themselves are built one after another exactly
as long as the bucket and the packet pool have room (`exists_run_buildElements_iff`).
-/

namespace OpenFronthaul

/-! ## Messages for other slots -/

/-- A message for another slot. -/
def Message.at (m : Message) (time : SlotTime) : Message :=
  { m with header :=
    { m.header with frame := time.frame, subframe := time.subframe, slot := time.slot } }

/-- The wire name of a slot fits its fields. -/
lemma slotTime_lt (mu : Numerology) (slot : ℕ) :
    (mu.slotTime slot).subframe.toNat < 2 ^ CommonWord.subframe.width ∧
      (mu.slotTime slot).slot.toNat < 2 ^ CommonWord.slot.width := by
  have hsubframe : slot / mu.slotsPerSubframe % subframesPerFrame < 10 := Nat.mod_lt _ (by decide)
  have hslots : mu.slotsPerSubframe ≤ 8 := by cases mu <;> decide
  have hslot : slot % mu.slotsPerSubframe < mu.slotsPerSubframe :=
    Nat.mod_lt _ (by cases mu <;> decide)
  constructor
  · show (UInt8.ofNat _).toNat < 2 ^ 4
    rw [UInt8.toNat_ofNat']
    omega
  · show (UInt8.ofNat _).toNat < 2 ^ 6
    rw [UInt8.toNat_ofNat']
    omega

lemma MessageHeader.exists_encode_at {h : MessageHeader} {direction : Direction}
    {type : SectionType} {sections : ℕ} {bytes : Bytes}
    (hencode : h.encode direction type sections = .ok bytes) (mu : Numerology) (slot : ℕ) :
    ∃ bytes', ({ h with
        frame := (mu.slotTime slot).frame
        subframe := (mu.slotTime slot).subframe
        slot := (mu.slotTime slot).slot } : MessageHeader).encode direction type sections =
        .ok bytes' ∧ bytes'.length = bytes.length := by
  obtain ⟨hsubframe, hslot⟩ := slotTime_lt mu slot
  simp only [encode, bind_eq_ok, pure_eq_ok] at hencode ⊢
  obtain ⟨_, hfilter, _, -, _, -, _, hstart, part, hpart, rfl⟩ := hencode
  refine ⟨_, ⟨(), hfilter, (), BitField.check_eq_ok.mpr hsubframe, (),
    BitField.check_eq_ok.mpr hslot, (), hstart, part, hpart, rfl⟩, ?_⟩
  simp only [List.length_append, Bytes.length_ofNat]

/-- A message can be written for every slot or for none, and is as long for each. -/
lemma Message.exists_segments_at {m : Message} {mu : Numerology} {tagging : IdTagging}
    {segments : List Segment} (h : m.segments mu tagging = .ok segments) (slot : ℕ) :
    ∃ segments', (m.at (mu.slotTime slot)).segments mu tagging = .ok segments' ∧
      (segments'.flatMap Segment.bytes).length = (segments.flatMap Segment.bytes).length := by
  simp only [Message.segments, bind_eq_ok, pure_eq_ok] at h ⊢
  obtain ⟨header, hheader, sections, hsections, rfl⟩ := h
  obtain ⟨header', hheader', hlength⟩ := MessageHeader.exists_encode_at hheader mu slot
  refine ⟨_, ⟨header', hheader', sections, hsections, rfl⟩, ?_⟩
  simp only [Segment.flatMap_coalesce, List.flatMap_cons, List.length_append, Segment.bytes,
    hlength]

namespace Producer

variable {settings : ProducerSettings} {o o' : Order} {p : Producer} {x : PrbElement × ℕ}

/-! ## Elements by themselves -/

lemma elementSymbols_of_fdd {frame : FrameStructure} (h : frame.duplex = .fdd)
    (d : Direction) (slot : ℕ) (e : PrbElement) :
    elementSymbols frame d slot e = some (e.startSymbol.toNat, e.numSymbols.toNat) := by
  rw [elementSymbols, if_neg fun hspecial => hspecial.1 h]

lemma elementMessage_at {d : Direction} {slot start count index : ℕ} {category : Category}
    {e : PrbElement} {m : Message}
    (h : elementMessage settings d slot category e index start count = .ok m) (slot' : ℕ) :
    elementMessage settings d slot' category e index start count =
      .ok (m.at (settings.mu.slotTime slot')) := by
  simp only [elementMessage, bind_eq_ok, pure_eq_ok] at h ⊢
  obtain ⟨extensions, hextensions, rfl⟩ := h
  exact ⟨extensions, hextensions, rfl⟩

lemma length_prepend (packet : Packet) (bytes : Bytes) :
    (packet.prepend bytes).length = bytes.length + packet.length := by
  rw [Packet.length, Segment.totalLength, Packet.prepend, List.map_cons, List.sum_cons]
  rfl

/-- Whether a packet gets a header and fits a frame depends on its length alone. -/
lemma exists_addHeader_iff {flow : Flow} {sequence : UInt8} {packet : Packet} :
    (∃ framed, addHeader settings flow sequence packet = .ok framed) ↔
      packet.length + 4 ≤ 65535 ∧
        Ecpri.headerLength + packet.length + WeightBundles.ethernetLength ≤ settings.mtu := by
  have hlength {header : Bytes} (h : Ecpri.setPayloadSize
      (settings.framer.header flow.carrier flow.antenna sequence) packet.length = .ok header) :
      (packet.prepend header).length = Ecpri.headerLength + packet.length := by
    rw [← Packet.length_wire] at h
    rw [length_prepend, (Ecpri.parse_setPayloadSize h).1]
  simp only [addHeader, bind_eq_ok, check_eq_ok, pure_eq_ok, liftLink_eq_ok]
  constructor
  · rintro ⟨framed, header, hheader, hfits, -⟩
    rw [hlength hheader] at hfits
    exact ⟨Ecpri.exists_setPayloadSize_iff.mp ⟨header, hheader⟩, Nat.le_of_not_lt hfits⟩
  · rintro ⟨hsize, hmtu⟩
    obtain ⟨header, hheader⟩ := Ecpri.exists_setPayloadSize_iff.mpr hsize
    refine ⟨_, header, hheader, ?_, rfl⟩
    rw [hlength hheader]
    exact Nat.not_lt_of_le hmtu

/-- A packet gets a header when another one of its length does. -/
lemma exists_addHeader_of_length_eq {flow flow' : Flow} {sequence : UInt8} {segments : List Segment}
    {pooled : Bool} {framed : Packet}
    (h : addHeader settings flow sequence ⟨segments, pooled⟩ = .ok framed)
    {segments' : List Segment} (hlength : (segments'.flatMap Segment.bytes).length =
      (segments.flatMap Segment.bytes).length) (sequence' : UInt8) :
    ∃ framed', addHeader settings flow' sequence' ⟨segments', pooled⟩ = .ok framed' := by
  have hsame : (⟨segments', pooled⟩ : Packet).length = (⟨segments, pooled⟩ : Packet).length := by
    rw [← Packet.length_wire, ← Packet.length_wire]
    exact hlength
  have hfits := exists_addHeader_iff.mp ⟨framed, h⟩
  rw [← hsame] at hfits
  exact exists_addHeader_iff.mpr hfits

/-- An element, at its place in a map, that some producer with these settings was able to build for
a direction. -/
def Builds (settings : ProducerSettings) (d : Direction) (category : Category)
    (x : PrbElement × ℕ) : Prop :=
  ∃ (o : Order) (p : Producer), p.settings = settings ∧ o.flow.direction = d ∧
    o.category = category ∧ ((buildElement o x.2 x.1).run p).1.isOk = true

/-- An element that can be built can be built for any slot, any flow and any sequence number. -/
theorem Builds.isFramed {d : Direction} {category : Category}
    (h : Builds settings d category x) (hfdd : settings.frame.duplex = .fdd)
    (hdirection : o.flow.direction = d) (hcategory : o.category = category) (sequence : UInt8) :
    ∃ packet, IsFramed settings o sequence x.1 x.2 packet := by
  obtain ⟨first, p, rfl, rfl, rfl, hok⟩ := h
  obtain ⟨packet?, after, hrun⟩ := exists_run_eq_ok hok
  obtain ⟨-, hkeeps, hframed⟩ := run_buildElement_eq_ok hrun
  rw [keeps, elementSymbols_of_fdd hfdd] at hkeeps
  obtain ⟨packet, rfl⟩ := Option.isSome_iff_exists.mp hkeeps
  obtain ⟨start, count, m, segments, pooled, hsymbols, hmessage, hvalid, hsegments, hheader⟩ :=
    hframed packet rfl
  rw [elementSymbols_of_fdd hfdd] at hsymbols
  rw [← hdirection, ← hcategory] at hmessage
  obtain ⟨segments', hsegments', hlength⟩ := Message.exists_segments_at hsegments o.slot
  obtain ⟨framed, hframed'⟩ := exists_addHeader_of_length_eq hheader hlength sequence
  exact ⟨framed, start, count, _, segments', pooled, by rw [elementSymbols_of_fdd hfdd, hsymbols],
    elementMessage_at hmessage o.slot, hvalid, hsegments', hframed'⟩

/-! ## Elements one after another -/

/-- A producer whose bucket for an order has room for some sections. -/
structure HasRoom (p : Producer) (o : Order) (sections : ℕ) : Prop where
  pool : p.memory.pool = none
  hasKey : p.store.hasKey o.key = true
  room : (p.store.entries o.key).length + sections ≤ p.store.capacity

lemma pool_of_lockstep {α : Type} {d : Direction} {x : StateM Producer α}
    (h : ∀ left₀ right₀, InLockstep (Twins d left₀ right₀) x) (hpool : p.memory.pool = none) :
    (x p).2.memory.pool = none :=
  (h p p (Twins.begin (.refl _ p) hpool hpool)).2.pool_left

/-- Room for some packets of an order: places in its bucket, and slots of the pool. -/
@[mk_iff]
structure Accommodates (p : Producer) (o : Order) (packets : ℕ) : Prop where
  places : (p.store.entries o.key).length + packets ≤ p.store.capacity
  slots : p.memory.Admits packets

lemma accommodates_zero (p : Producer) (o : Order) : p.Accommodates o 0 :=
  ⟨SectionStore.length_entries_le, p.memory.admits_zero⟩

lemma Accommodates.mono {n k : ℕ} (h : p.Accommodates o n) (hle : k ≤ n) : p.Accommodates o k :=
  ⟨(Nat.add_le_add_left hle _).trans h.places, fun pool hpool => hle.trans (h.slots pool hpool)⟩

lemma HasRoom.accommodates {n : ℕ} (h : HasRoom p o n) : p.Accommodates o n :=
  ⟨h.room, Memory.admits_of_pool h.pool n⟩

/-- An element that has a packet for the order fails only for lack of room. -/
lemma resource_of_fails {e : Error} {numbered : Bool} (hkey : p.store.hasKey o.key = true)
    (h : keeps p.settings o x.1 = true →
      ∃ packet, IsFramed p.settings o (p.nextSequence o.flow) x.1 x.2 packet)
    (hfails : Fails p o x e numbered) :
    keeps p.settings o x.1 = true ∧ e.kind = .resource ∧ ¬p.Accommodates o 1 := by
  have hkeeps : keeps p.settings o x.1 = true := by
    cases hfails with
    | unsendable hsymbols | unwritten hsymbols | unframed hsymbols =>
      rw [keeps, hsymbols]
      rfl
    | unrecorded hinfo =>
      rw [← isSome_recordFor?, hinfo]
      rfl
  obtain ⟨packet, start, count, m, segments, pooled, hsymbols, hmessage, hvalid, hsegments,
    hheader⟩ := h hkeeps
  have hencode := Message.run_encode_of_written hvalid hsegments p.memory
  -- whether there is a header depends on the bytes alone, not on a slot
  have hsendable (unframed : Packet) (hsame : unframed.segments = segments) :
      ∃ framed, addHeader p.settings o.flow (p.nextSequence o.flow) unframed = .ok framed := by
    have hfits := exists_addHeader_iff.mp ⟨packet, hheader⟩
    rw [← hsame] at hfits
    exact exists_addHeader_iff.mpr hfits
  refine ⟨hkeeps, ?_⟩
  cases hfails with
  | unsendable hsymbols' hmessage' =>
    rw [hsymbols] at hsymbols'
    cases hsymbols'
    rw [hmessage] at hmessage'
    cases hmessage'
  | unwritten hsymbols' hmessage' hencode' =>
    rw [hsymbols] at hsymbols'
    cases hsymbols'
    rw [hmessage] at hmessage'
    cases hmessage'
    rw [hencode] at hencode'
    rcases htake : p.memory.takeSlot with err | left
    · rw [htake] at hencode'
      cases hencode'
      obtain ⟨hkind, hslots⟩ := Memory.takeSlot_eq_error htake
      exact ⟨hkind, fun hroom => hslots hroom.slots⟩
    · rw [htake] at hencode'
      cases hencode'
  | unframed hsymbols' hmessage' hencode' hheader' =>
    rw [hsymbols] at hsymbols'
    cases hsymbols'
    rw [hmessage] at hmessage'
    cases hmessage'
    obtain ⟨-, hsegments'⟩ := Message.run_encode_eq_ok hencode'
    obtain ⟨framed, hframed⟩ := hsendable _ (Except.ok.inj (hsegments'.symm.trans hsegments))
    cases hheader'.symm.trans hframed
  | unrecorded hinfo hrecord =>
    rcases Nat.lt_or_ge (p.store.entries o.key).length p.store.capacity with hroom | hfull
    · obtain ⟨store, hadd, -⟩ := SectionStore.add_of_room _ hkey hroom
      cases hrecord.symm.trans hadd
    · obtain rfl := Except.error.inj (hrecord.symm.trans (SectionStore.add_of_full _ hkey hfull))
      exact ⟨rfl, fun hroom => Nat.not_lt_of_le hfull hroom.places⟩

/-- An element that is built takes the room of its packet. -/
lemma accommodates_iff_of_buildElement {index : ℕ} {e : PrbElement} {packet? : Option Packet}
    {after : Producer} (h : (buildElement o index e).run p = (.ok packet?, after)) (n : ℕ) :
    p.Accommodates o (packet?.toList.length + n) ↔ after.Accommodates o n := by
  obtain ⟨htraces, hkeeps, -⟩ := run_buildElement_eq_ok h
  have hone : (recordFor? p.settings o (e, index)).toList.length = packet?.toList.length := by
    rw [Option.length_toList, Option.length_toList, hkeeps, isSome_recordFor?]
  have hplaces : (after.store.entries o.key).length + n =
      (p.store.entries o.key).length + (packet?.toList.length + n) := by
    rw [htraces.store.entries_self, List.length_append, hone, Nat.add_assoc]
  have hslots : p.memory.Admits (packet?.toList.length + n) ↔ after.memory.Admits n := by
    have hends := ends_buildElement p o index e
    rw [h] at hends
    cases hends with
    | skipped =>
      rw [Option.toList_none, List.length_nil, Nat.zero_add]
    | sent _ _ _ hslot => exact hslot.admits_iff n
  constructor
  · rintro ⟨hroom, hadmits⟩
    exact ⟨by rwa [hplaces, htraces.store.capacity_eq], hslots.mp hadmits⟩
  · rintro ⟨hroom, hadmits⟩
    rw [hplaces, htraces.store.capacity_eq] at hroom
    exact ⟨hroom, hslots.mpr hadmits⟩

/-- Elements that have packets for the order are built exactly when there is room for the packets of
those that keep symbols, and fail for lack of room otherwise.  By induction on the elements: each
one that is built takes the room of its packet. -/
theorem exists_run_buildElements_iff {index : ℕ} {elements : List PrbElement}
    (hkey : p.store.hasKey o.key = true)
    (h : ∀ x ∈ elements.zipIdx index, keeps p.settings o x.1 = true → ∀ sequence,
      ∃ packet, IsFramed p.settings o sequence x.1 x.2 packet) :
    ((∃ packets after, (buildElements o index elements).run p = (.ok packets, after)) ↔
      p.Accommodates o (elements.countP (keeps p.settings o))) ∧
    ∀ err after, (buildElements o index elements).run p = (.error err, after) →
      err.kind = .resource := by
  induction elements generalizing index p with
  | nil =>
    refine ⟨⟨fun _ => accommodates_zero p o, fun _ => ⟨[], p, rfl⟩⟩, fun err after hrun => ?_⟩
    cases hrun
  | cons e elements ih =>
    rw [List.zipIdx_cons] at h
    obtain ⟨he, helements⟩ := List.forall_mem_cons.mp h
    rw [run_buildElements_cons]
    rcases helement : (buildElement o index e).run p with ⟨err | packet?, next⟩
    · obtain ⟨numbered, hfails, -⟩ := run_buildElement_eq_error helement
      obtain ⟨hkeeps, hkind, hroom⟩ := resource_of_fails hkey (fun hkeeps => he hkeeps _) hfails
      refine ⟨⟨?_, fun hall => absurd (hall.mono ?_) hroom⟩, ?_⟩
      · rintro ⟨packets, after, hrun⟩
        cases hrun
      · rw [List.countP_cons_of_pos hkeeps]
        exact Nat.le_add_left _ _
      · rintro _ _ ⟨⟩
        exact hkind
    · obtain ⟨htraces, hkeeps, -⟩ := run_buildElement_eq_ok helement
      have hcount : (e :: elements).countP (keeps p.settings o) =
          packet?.toList.length + elements.countP (keeps p.settings o) := by
        rw [List.countP_cons, Nat.add_comm, Option.length_toList, hkeeps]
      rw [hcount, accommodates_iff_of_buildElement helement]
      rw [← htraces.settings] at helements ⊢
      obtain ⟨hiff, herror⟩ := ih ((htraces.store.hasKey_eq _).trans hkey) helements
      rw [← hiff]
      dsimp only
      rcases hrest : (buildElements o (index + 1) elements).run next with ⟨err | packets, last⟩
      · refine ⟨⟨?_, ?_⟩, ?_⟩
        · rintro ⟨packets, after, hrun⟩
          cases hrun
        · rintro ⟨packets, after, hrun⟩
          cases hrun
        · rintro _ _ ⟨⟩
          exact herror err last hrest
      · refine ⟨⟨fun _ => ⟨packets, last, rfl⟩, fun _ => ⟨_, last, rfl⟩⟩, ?_⟩
        rintro err after hrun
        cases hrun

/-! ## Parts of a map -/

/-- The section that is recorded for an element that keeps all of its symbols. -/
def elementRecord (category : Category) (x : PrbElement × ℕ) : Section :=
  { elementSection x.1 x.2 x.1.startSymbol.toNat x.1.numSymbols.toNat with
    extended := isExtended x.1 category }

lemma recordFor?_of_fdd (h : settings.frame.duplex = .fdd) (x : PrbElement × ℕ) :
    recordFor? settings o x = some (elementRecord o.category x) := by
  rw [recordFor?, elementSymbols_of_fdd h]
  rfl

/-- What a producer comes to that built some elements without a failure. -/
structure Completes (o : Order) (p after : Producer) (xs : List (PrbElement × ℕ))
    (packets : List Packet) : Prop where
  traces : Traces o p after (xs.map (elementRecord o.category)) xs.length xs.length
  pool : after.memory.pool = none
  packets : List.Forall₂ (fun x packet => ∃ sequence, IsFramed p.settings o sequence x.1 x.2 packet)
    xs packets

/-- Of a map whose elements can be built every part can be built, as long as there is room. -/
theorem exists_run_buildRange {map : PrbMap} {range : ℕ × ℕ} (hfdd : p.settings.frame.duplex = .fdd)
    (hbuilds : ∀ x ∈ map.elements.zipIdx, Builds p.settings o.flow.direction o.category x)
    (hroom : HasRoom p o ((map.elements.zipIdx.take range.2).drop range.1).length) :
    ∃ packets after, (buildRange o map range).run p = (.ok packets, after) ∧
      Completes o p after ((map.elements.zipIdx.take range.2).drop range.1) packets := by
  have hplaces : ((map.elements.take range.2).drop range.1).zipIdx (min range.1 map.size) =
      (map.elements.zipIdx.take range.2).drop range.1 := zipIdx_drop_take _ _ _
  have hcount : ((map.elements.take range.2).drop range.1).length =
      ((map.elements.zipIdx.take range.2).drop range.1).length := by
    rw [← hplaces, List.length_zipIdx]
  rw [← hcount] at hroom
  have hframed (x : PrbElement × ℕ)
      (hx : x ∈ ((map.elements.take range.2).drop range.1).zipIdx (min range.1 map.size))
      (_ : keeps p.settings o x.1 = true) (sequence : UInt8) :
      ∃ packet, IsFramed p.settings o sequence x.1 x.2 packet := by
    rw [hplaces] at hx
    exact (hbuilds x (List.mem_of_mem_take (List.mem_of_mem_drop hx))).isFramed hfdd rfl rfl
      sequence
  obtain ⟨packets, after, hrun⟩ := (exists_run_buildElements_iff hroom.hasKey hframed).1.mpr
    (hroom.accommodates.mono List.countP_le_length)
  obtain ⟨htraces, hpackets⟩ := run_buildElements_eq_ok (UInt8.add_zero _).symm hrun
  have hpool := pool_of_lockstep (d := o.flow.direction)
    (fun _ _ => lockstep_buildRange rfl map range) hroom.pool
  rw [buildRange, hrun] at hpool
  rw [hplaces, hcount] at htraces
  rw [hplaces] at hpackets
  generalize (map.elements.zipIdx.take range.2).drop range.1 = xs at *
  have hrecords : xs.filterMap (recordFor? p.settings o) = xs.map (elementRecord o.category) := by
    rw [← List.filterMap_eq_map]
    exact List.filterMap_congr fun x _ => recordFor?_of_fdd hfdd x
  have hall : (xs.filter fun x => keeps p.settings o x.1) = xs := by
    refine List.filter_eq_self.mpr fun x _ => ?_
    rw [keeps, elementSymbols_of_fdd hfdd]
    rfl
  rw [hall] at hpackets
  have hlength : packets.length = xs.length := by
    rw [← hpackets.length_eq, List.length_zipIdx]
  rw [hrecords, hlength] at htraces
  exact ⟨packets, after, hrun, htraces, hpool,
    forall₂_of_zipIdx (hpackets.imp fun _ _ hx => ⟨_, hx⟩)⟩

end Producer

end OpenFronthaul
