import OpenFronthaul.Proofs.Frame.Symbols
import OpenFronthaul.Proofs.Producer.Packets

/-!
# The symbols that packets schedule

An element of a map covers symbols of a slot, and a slot leaves it all of them, or in a special slot
those in the first run of the direction (`Producer.elementSymbols_eq_some`).  What a packet
schedules is read off its bytes (`Packet.schedule`).  Where a slot serves the direction of its
packets, they schedule symbols of that direction alone, and the elements without a packet are those
that miss the first run (`Producer.buildMap_schedules`).
-/

namespace OpenFronthaul

/-! ## Usable elements -/

/-- An element with resource blocks and with symbols of a slot. -/
structure PrbElement.Usable (e : PrbElement) : Prop where
  numPrb_pos : 0 < e.numPrb.toNat
  numSymbols_pos : 0 < e.numSymbols.toNat
  symbols_le : e.startSymbol.toNat + e.numSymbols.toNat ≤ symbolsPerSlot

/-- An element covers a symbol. -/
def PrbElement.Covers (e : PrbElement) (i : ℕ) : Prop :=
  e.startSymbol.toNat ≤ i ∧ i < e.startSymbol.toNat + e.numSymbols.toNat

lemma PrbElement.validate_eq_ok {e : PrbElement} {index : ℕ} :
    e.validate index = .ok () ↔ e.Usable := by
  rw [validate, guard_eq_ok, guard_eq_ok, pure_eq_ok, not_or, not_lt]
  constructor
  · rintro ⟨hprb, ⟨hcount, hle⟩, -⟩
    exact ⟨Nat.pos_of_ne_zero hprb, Nat.pos_of_ne_zero hcount, hle⟩
  · rintro ⟨hprb, hcount, hle⟩
    exact ⟨hprb.ne', ⟨hcount.ne', hle⟩, rfl⟩

lemma PrbElement.validateFrom_eq_ok {index : ℕ} {elements : List PrbElement} :
    validateFrom index elements = .ok () ↔ ∀ e ∈ elements, e.Usable := by
  induction elements generalizing index with
  | nil => simp [validateFrom, pure_eq_ok]
  | cons e elements ih =>
    rw [validateFrom, bind_eq_ok, List.forall_mem_cons]
    constructor
    · rintro ⟨_, hhead, htail⟩
      exact ⟨validate_eq_ok.mp hhead, ih.mp htail⟩
    · rintro ⟨hhead, htail⟩
      exact ⟨(), validate_eq_ok.mpr hhead, ih.mpr htail⟩

/-- A map has a bounded number of elements, and all of them are usable. -/
lemma PrbMap.create_eq_ok {direction : Direction} {elements : List PrbElement} {map : PrbMap}
    (h : create direction elements = .ok map) :
    map.size ≤ maxElements ∧ ∀ e ∈ map.elements, e.Usable := by
  simp only [create, check_eq_ok, bind_eq_ok, pure_eq_ok] at h
  obtain ⟨hcount, _, hvalid, rfl⟩ := h
  exact ⟨Nat.le_of_not_lt hcount, PrbElement.validateFrom_eq_ok.mp hvalid⟩

lemma PrbMap.usable_of_mem_zipIdx {direction : Direction} {elements : List PrbElement}
    {map : PrbMap} (h : create direction elements = .ok map) {x : PrbElement × ℕ}
    (hx : x ∈ map.elements.zipIdx) : x.1.Usable ∧ x.2 < maxElements := by
  obtain ⟨hsize, husable⟩ := create_eq_ok h
  obtain ⟨-, hlt, helement⟩ := List.mem_zipIdx hx
  rw [Nat.zero_add] at hlt
  refine ⟨?_, hlt.trans_le hsize⟩
  rw [helement]
  exact husable _ (List.getElem_mem _)

namespace Producer

/-! ## What a slot leaves of an element -/

section Symbols

variable {frame : FrameStructure} {direction : Direction} {slot start count i : ℕ} {e : PrbElement}

/-- A slot leaves an element a symbol: one that the element covers, and in a special slot one in the
first run of symbols of the direction. -/
def Leaves (frame : FrameStructure) (direction : Direction) (slot : ℕ) (e : PrbElement) (i : ℕ) :
    Prop :=
  e.Covers i ∧ (frame.duplex ≠ .fdd ∧ frame.isSpecial slot = true →
    frame.InFirstRun (.ofDirection direction) slot i)

lemma elementSymbols_eq_some (he : e.Usable)
    (h : elementSymbols frame direction slot e = some (start, count)) :
    0 < count ∧ ∀ i, start ≤ i ∧ i < start + count ↔ Leaves frame direction slot e i := by
  simp only [Leaves]
  rw [elementSymbols] at h
  split_ifs at h with hspecial
  · obtain ⟨hpos, hrange⟩ := FrameStructure.clip?_eq_some h
    refine ⟨hpos, fun i => ?_⟩
    rw [hrange, PrbElement.Covers, and_assoc, imp_iff_right hspecial]
  · obtain ⟨rfl, rfl⟩ := Prod.mk.inj (Option.some.inj h)
    exact ⟨he.numSymbols_pos, fun i => (and_iff_left fun h => absurd h hspecial).symm⟩

/-- The symbols that a slot leaves are symbols of the slot. -/
lemma elementSymbols_le (he : e.Usable)
    (h : elementSymbols frame direction slot e = some (start, count)) :
    start + count ≤ symbolsPerSlot := by
  obtain ⟨hpos, hrange⟩ := elementSymbols_eq_some he h
  have hlast := ((hrange (start + count - 1)).mp (by omega)).1.2
  have hle := he.symbols_le
  omega

/-- A slot leaves nothing of an element when it is special and the element misses the first run. -/
lemma elementSymbols_eq_none : elementSymbols frame direction slot e = none ↔
    (frame.duplex ≠ .fdd ∧ frame.isSpecial slot = true) ∧
      ∀ i, e.Covers i → ¬frame.InFirstRun (.ofDirection direction) slot i := by
  rw [elementSymbols]
  split_ifs with hspecial
  · rw [FrameStructure.clip?_eq_none, and_iff_right hspecial]
    simp only [PrbElement.Covers, and_imp]
  · exact ⟨nofun, fun h => absurd h.1 hspecial⟩

/-- An element is kept when the slot leaves it a symbol. -/
lemma keeps_iff {settings : ProducerSettings} {o : Order} (he : e.Usable) :
    keeps settings o e = true ↔ ∃ i, Leaves settings.frame o.flow.direction o.slot e i := by
  rw [keeps]
  rcases hsymbols : elementSymbols settings.frame o.flow.direction o.slot e with _ | ⟨start, count⟩
  · obtain ⟨hspecial, hmiss⟩ := elementSymbols_eq_none.mp hsymbols
    refine ⟨by simp, ?_⟩
    rintro ⟨i, hcovers, hrun⟩
    exact absurd (hrun hspecial) (hmiss i hcovers)
  · obtain ⟨hpos, hrange⟩ := elementSymbols_eq_some he hsymbols
    exact ⟨fun _ => ⟨start, (hrange start).mp (by omega)⟩, fun _ => rfl⟩

/-- What is left of an element in a slot that serves a direction carries that direction. -/
lemma symbolUse_of_elementSymbols (he : e.Usable) (hframe : frame.Configured)
    (hserves : frame.serves slot (.ofDirection direction) = true)
    (h : elementSymbols frame direction slot e = some (start, count))
    (hi : start ≤ i ∧ i < start + count) :
    frame.symbolUse slot i = .ofDirection direction ∨ frame.symbolUse slot i = .fdd := by
  obtain ⟨-, hrange⟩ := elementSymbols_eq_some he h
  obtain ⟨-, hrun⟩ := (hrange i).mp hi
  cases hspecial : frame.isSpecial slot with
  | true => exact .inl (hrun ⟨hframe.duplex_ne_fdd hspecial, hspecial⟩).symbolUse_eq
  | false => exact hframe.symbolUse_of_serves hserves hspecial i

end Symbols

end Producer

/-! ## What a packet schedules -/

/-- What is scheduled by the first section of a packet. -/
structure Schedule where
  /-- Direction of the user data. -/
  direction : Direction
  /-- The slot. -/
  time : SlotTime
  /-- Number of sections in the packet. -/
  sections : ℕ
  /-- Id of the section. -/
  id : UInt16
  /-- First symbol. -/
  start : ℕ
  /-- Number of symbols. -/
  count : ℕ
deriving DecidableEq

/-- The schedule in the bytes of a packet, to a receiver that knows how ids are tagged. -/
def Packet.schedule (packet : Packet) (tagging : IdTagging) : Except Error Schedule := do
  let parsed ← Receiver.acceptHeader packet.message
  let wire ← WireSection.parse (packet.message.drop parsed.type.headerLength) parsed.type
  return { direction := parsed.direction
           time := parsed.header.slotTime
           sections := parsed.sections
           id := tagging.strip wire.wireId.toNat
           start := parsed.header.startSymbol.toNat
           count := wire.numSymbols.toNat }

/-- The schedule of a message with one section is read off its bytes. -/
lemma Packet.schedule_eq {packet : Packet} {mu : Numerology} {tagging : IdTagging} {m : Message}
    {s : ExtendedSection} {segments : List Segment}
    (hwire : packet.message = segments.flatMap Segment.bytes)
    (hvalid : m.validate = .ok ()) (h : m.segments mu tagging = .ok segments)
    (hsingle : m.sections = [s]) (htype : m.type = .regular) :
    packet.schedule tagging = .ok
      { direction := m.direction, time := m.header.slotTime, sections := 1, id := s.info.id
        start := m.header.startSymbol.toNat, count := s.info.numSymbols.toNat } := by
  have hregular : m.type ≠ .mixed := by
    rw [htype]
    nofun
  obtain ⟨hsupported, -⟩ := Message.validate_eq_ok hvalid
  obtain ⟨header, parts, hheader, hparts, hbytes⟩ := Message.segments_eq_ok h
  rw [hsingle] at hparts
  simp only [List.mapM_cons, List.mapM_nil, Message.encodeSection, bind_eq_ok, pure_eq_ok] at hparts
  obtain ⟨part, ⟨wireId, htag, bytes, hsection, chain, -, rfl⟩, _, rfl, rfl⟩ := hparts
  obtain ⟨haccept, hlength⟩ := Receiver.acceptHeader_encode hvalid hheader
    (fun hmixed => absurd hmixed hregular) (bytes ++ chain.flatMap Segment.bytes)
  obtain ⟨hparse, -⟩ :=
    Section.parse_encode hsection hsupported (chain.flatMap Segment.bytes)
  have hmessage : packet.message = header ++ (bytes ++ chain.flatMap Segment.bytes) := by
    rw [hwire, hbytes]
    simp [Segment.bytes]
  have hwireId := Section.toNat_wireId (Section.encode_eq_ok.mp hsection).1.id
  rw [schedule, hmessage, haccept, ok_bind]
  dsimp only
  rw [← hlength, List.drop_left, hparse, ok_bind]
  simp only [Section.onWire, hwireId, IdTagging.strip_tag htag, MessageHeader.onWire,
    MessageHeader.received, if_neg hregular, hsingle]
  rfl

/-- A schedule of symbols of a slot all of which carry a direction. -/
structure Schedule.Allowed (s : Schedule) (frame : FrameStructure) (slot : ℕ)
    (direction : Direction) : Prop where
  count_pos : 0 < s.count
  end_le : s.start + s.count ≤ symbolsPerSlot
  use : ∀ i, s.start ≤ i → i < s.start + s.count →
    frame.symbolUse slot i = .ofDirection direction ∨ frame.symbolUse slot i = .fdd

namespace Producer

variable {p after : Producer} {o : Order}

/-- The packet of an element schedules the symbols that the slot leaves of the element. -/
lemma IsElementPacket.schedule_eq {settings : ProducerSettings} {e : PrbElement} {index : ℕ}
    {packet : Packet} (h : IsElementPacket settings o e index packet) (he : e.Usable) :
    ∃ start count, elementSymbols settings.frame o.flow.direction o.slot e = some (start, count) ∧
      packet.schedule settings.tagging = .ok
        { direction := o.flow.direction, time := settings.mu.slotTime o.slot, sections := 1
          id := UInt16.ofNat index, start, count } := by
  obtain ⟨start, count, m, segments, hsymbols, hmessage, hvalid, hsegments, hwire⟩ := h
  refine ⟨start, count, hsymbols, ?_⟩
  have hle : start + count ≤ 14 := elementSymbols_le he hsymbols
  simp only [elementMessage, bind_eq_ok, pure_eq_ok] at hmessage
  obtain ⟨extensions, -, rfl⟩ := hmessage
  rw [Packet.schedule_eq hwire hvalid hsegments rfl rfl]
  have hstart : (UInt8.ofNat start).toNat = start := by
    rw [UInt8.toNat_ofNat', Nat.mod_eq_of_lt (by omega)]
  have hcount : (UInt8.ofNat count).toNat = count := by
    rw [UInt8.toNat_ofNat', Nat.mod_eq_of_lt (by omega)]
  simp only [ExtendedSection.create, elementSection, hstart, hcount]
  rfl

/-- In a slot that serves their direction the packets of a map schedule symbols of that direction
alone, and an element is skipped when it misses the first run of the direction in a special slot. -/
theorem buildMap_schedules {direction : Direction} {elements : List PrbElement} {map : PrbMap}
    {packets : List Packet} (hframe : p.settings.frame.Configured)
    (hserves : p.settings.frame.serves o.slot (.ofDirection o.flow.direction) = true)
    (hmap : PrbMap.create direction elements = .ok map)
    (h : (buildMap o map).run p = (.ok packets, after)) :
    List.Forall₂
        (fun x packet => ∃ s, packet.schedule p.settings.tagging = .ok s ∧ s.sections = 1 ∧
          s.direction = o.flow.direction ∧ s.time = p.settings.mu.slotTime o.slot ∧
          s.id.toNat = x.2 ∧ s.Allowed p.settings.frame o.slot o.flow.direction ∧
          ∀ i, s.start ≤ i → i < s.start + s.count → x.1.Covers i)
        (map.elements.zipIdx.filter fun x => keeps p.settings o x.1) packets ∧
      (∀ e, keeps p.settings o e = false ↔ p.settings.frame.isSpecial o.slot = true ∧
        ∀ i, e.Covers i →
          ¬p.settings.frame.InFirstRun (.ofDirection o.flow.direction) o.slot i) ∧
      after.counts.skipped + packets.length = p.counts.skipped + map.size := by
  obtain ⟨hpasses, -⟩ := run_buildMap_framed h
  obtain ⟨-, hpackets⟩ := run_buildMap_eq_ok h
  have husable : ∀ x ∈ map.elements.zipIdx.filter fun x => keeps p.settings o x.1,
      x.1.Usable ∧ x.2 < PrbMap.maxElements :=
    fun x hx => PrbMap.usable_of_mem_zipIdx hmap (List.mem_of_mem_filter hx)
  refine ⟨?_, fun e => ?_, hpasses.skipped⟩
  · refine ((List.forall₂_and_left _ _).mpr ⟨husable, hpackets⟩).imp ?_
    rintro ⟨e, index⟩ packet ⟨⟨he, hindex⟩, hpacket⟩
    obtain ⟨start, count, hsymbols, hschedule⟩ := hpacket.schedule_eq he
    obtain ⟨hpos, hrange⟩ := elementSymbols_eq_some he hsymbols
    refine ⟨_, hschedule, rfl, rfl, rfl, ?_, ?_, fun i hle hlt => ((hrange i).mp ⟨hle, hlt⟩).1⟩
    · rw [UInt16.toNat_ofNat', Nat.mod_eq_of_lt (hindex.trans (by decide))]
    · exact ⟨hpos, elementSymbols_le he hsymbols, fun i hle hlt =>
        symbolUse_of_elementSymbols he hframe hserves hsymbols ⟨hle, hlt⟩⟩
  · rw [keeps, Option.isSome_eq_false_iff, Option.isNone_iff_eq_none, elementSymbols_eq_none,
      and_iff_right_of_imp hframe.duplex_ne_fdd]

/-! ## A special slot -/

namespace MixedSlot

/-- A slot with six downlink symbols, four guard symbols and four uplink symbols. -/
def pattern : SlotPattern :=
  #v[.dl, .dl, .dl, .dl, .dl, .dl, .guard, .guard, .guard, .guard, .ul, .ul, .ul, .ul]

/-- A producer whose slots are all alike. -/
def producer : Producer where
  settings :=
    { mu := .khz30, tagging := .untagged, framer := {}, mtu := 1500
      frame := ⟨.khz30, .tdd, [.ofPattern pattern], ⟨1, 1⟩, ⟨1, 1⟩⟩ }
  store := ⟨1, 1, 4, Vector.replicate _ (.blank 4)⟩

/-- An element that ends in front of the uplink symbols, and one that goes on into them. -/
def elements : List PrbElement :=
  [{ numPrb := 50, startSymbol := 0, numSymbols := 8 },
    { numPrb := 50, startSymbol := 6, numSymbols := 8 }]

/-- The order for the uplink of a slot. -/
def order : Order :=
  ⟨⟨.ul, 0, 0⟩, 3, .a, 3⟩

/-- The first element is skipped, and the packet of the second one schedules uplink symbols. -/
theorem buildMap_schedules_mixedSlot :
    ∃ packet after, FrameStructure.tdd .khz30 [pattern] = .ok producer.settings.frame ∧
      (buildMap order ⟨.ul, elements⟩).run producer = (.ok [packet], after) ∧
      after.counts.skipped = 1 ∧
      ∃ s, packet.schedule .untagged = .ok s ∧ s.id = 1 ∧
        s.Allowed producer.settings.frame 3 .ul := by
  have hok : ((buildMap order ⟨.ul, elements⟩).run producer).1.isOk = true := by decide +kernel
  obtain ⟨packets, after, hrun⟩ := exists_run_eq_ok hok
  have hframe : FrameStructure.tdd .khz30 [pattern] = .ok producer.settings.frame := rfl
  obtain ⟨hpackets, -, hskipped⟩ :=
    buildMap_schedules (FrameStructure.Configured.tdd hframe) (by decide)
      (show PrbMap.create .ul elements = .ok ⟨.ul, elements⟩ from rfl) hrun
  have hkept : (elements.zipIdx.filter fun x => keeps producer.settings order x.1) =
      [({ numPrb := 50, startSymbol := 6, numSymbols := 8 }, 1)] := by decide
  rw [hkept, List.forall₂_cons_left_iff] at hpackets
  obtain ⟨packet, _, ⟨s, hschedule, -, -, -, hid, hallowed, -⟩, hnil, rfl⟩ := hpackets
  obtain rfl := List.forall₂_nil_left_iff.mp hnil
  refine ⟨packet, after, hframe, hrun, Nat.succ.inj hskipped, s, hschedule, ?_, hallowed⟩
  exact UInt16.toNat_inj.mp hid

end MixedSlot

end Producer

end OpenFronthaul
