import OpenFronthaul.Proofs.Producer.Contents
import OpenFronthaul.Proofs.Receiver.Rotation

/-!
# What a receiver makes of the packet of an element

The packet of an element has one section.  What a receiver reads of it is the section that the
producer recorded, up to what the wire does not carry (`Section.delivered`), or what the map says in
its place; the extensions behind it are read, or stepped over (`message_of_isElementPacket`).  A
packet with one section is a success when the section can be read and its bucket has room for it
(`decode_single_iff`).  So packets that are decoded one after another fill a bucket in their order
(`decodeEach_fills`).
-/

namespace OpenFronthaul

open SectionStore

/-- A section that was recorded for an element, as a receiver knows it that has been told the
resource blocks of the carrier, or has not. -/
def Section.delivered (s : Section) (carrierPrbs : Option UInt16) : Section :=
  { s with
    numPrb := if 255 < s.numPrb.toNat then carrierPrbs.getD 0 else s.numPrb
    allPrbs := 255 < s.numPrb.toNat
    iqWidth := SampleWidth.received s.iqWidth
    elementBegin := false
    elementEnd := false
    pointers := noPointers }

/-- What a receiver must know to follow the packets of an order. -/
structure FlowContext.Follows (c : FlowContext) (settings : ProducerSettings) (o : Producer.Order) :
    Prop where
  mu_eq : c.mu = settings.mu
  tagging_eq : c.tagging = settings.tagging
  carrier_eq : c.carrier = o.flow.carrier
  antenna_eq : c.antenna = o.flow.antenna

/-- The bucket of an order under the rotation context of its slot, whatever context the producer was
told to record under. -/
def Producer.Order.slotKey (o : Producer.Order) : SectionKey :=
  { o.key with context := rotationContext o.slot }

lemma FlowContext.Follows.bucketOf_eq {c : FlowContext} {settings : ProducerSettings}
    {o : Producer.Order} (h : c.Follows settings o) : Receiver.bucketOf c o = o.slotKey := by
  rw [Receiver.bucketOf, Producer.Order.slotKey, Producer.Order.key, h.carrier_eq, h.antenna_eq]

/-- A receiver knows how many weights a vector has where the packet of an element carries some. -/
def FlowContext.Knows (c : FlowContext) (o : Producer.Order) (e : PrbElement) : Prop :=
  o.category = .b ∧ e.weightUpdate = true → c.weights = some e.weights.count

namespace Receiver

variable {c : FlowContext} {settings : ProducerSettings} {o : Producer.Order} {e : PrbElement}
  {index : ℕ} {packet : Packet} {data : Bytes} {key : SectionKey} {store : SectionStore}

/-! ## Reading the section -/

/-- A section that was written is read, up to the map, and what follows it are its extensions. -/
lemma body_encodeSection (parsed : MessageHeader.Parsed) {s : ExtendedSection} {mu : Numerology}
    {tagging : IdTagging} {segments : List Segment}
    (h : Message.encodeSection mu tagging parsed.type s = .ok segments)
    (hsupported : parsed.type.isSupported = true)
    (hprbs : s.info.allPrbs = true ∨ 1 ≤ s.info.numPrb.toNat) :
    ∃ others, Message.encodeChain s.extensions = .ok others ∧
      ∀ c : FlowContext, c.tagging = tagging → ∀ index rest,
      body c parsed index (segments.flatMap Segment.bytes ++ rest) = do
        let info ← c.applyMap index
          (s.info.received parsed.type parsed.header c.carrierPrbs (!s.extensions.isEmpty))
        let (x, rest) ← extensions c (!s.extensions.isEmpty) (others.flatMap Segment.bytes ++ rest)
        return (⟨info, x⟩, rest) := by
  simp only [Message.encodeSection, bind_eq_ok, pure_eq_ok] at h
  obtain ⟨wireId, htag, bytes, hbytes, others, hothers, rfl⟩ := h
  refine ⟨others, hothers, ?_⟩
  rintro c rfl index rest
  have hwire : (Segment.owned bytes :: others).flatMap Segment.bytes ++ rest =
      bytes ++ (others.flatMap Segment.bytes ++ rest) := by
    rw [List.flatMap_cons, List.append_assoc]
    rfl
  obtain ⟨hparse, hdrop⟩ :=
    Section.parse_encode hbytes hsupported (others.flatMap Segment.bytes ++ rest)
  -- the tag is on the id before it is written, and is stripped by a receiver with the same tagging
  have hid := (Section.encode_eq_ok.mp hbytes).1.id
  rw [hwire, body, hparse, ok_bind, FlowContext.interpret_onWire htag hid hprbs, ← hdrop,
    List.drop_left]
  rfl

/-- What is read of the section of an element, but for the map, is the section that is recorded for
it as a receiver knows it. -/
lemma received_elementMessage {direction : Direction} {slot start count : ℕ} {category : Category}
    {m : Message} {s : ExtendedSection}
    (h : Producer.elementMessage settings direction slot category e index start count = .ok m)
    (hs : m.sections = [s]) (carrierPrbs : Option UInt16) :
    s.info.received .regular (m.header.onWire .regular) carrierPrbs (!s.extensions.isEmpty) =
      s.info.delivered carrierPrbs := by
  simp only [Producer.elementMessage, bind_eq_ok, pure_eq_ok] at h
  obtain ⟨extensions, -, rfl⟩ := h
  obtain rfl := List.singleton_inj.mp hs
  simp only [Section.received, Section.delivered, Section.usesSentinel, ExtendedSection.create,
    Producer.elementSection, MessageHeader.onWire, MessageHeader.received, reduceCtorEq, if_false,
    SampleWidth.ofWire_toWire_eq, Bool.false_or]
  by_cases hlarge : 255 < e.numPrb.toNat
  · simp [hlarge]
  · simp [hlarge]

/-- What a receiver reads of the packet of an element is up to the map, where its flow goes by it,
and to the extensions. -/
lemma message_of_isElementPacket (he : e.Usable)
    (h : Producer.IsElementPacket settings o e index packet) :
    ∃ info header others, Producer.recordFor? settings o (e, index) = some info ∧
      ∀ c : FlowContext, c.tagging = settings.tagging → message c packet.message = do
        let info' ← c.applyMap 0 (info.delivered c.carrierPrbs)
        let (x, _) ← extensions c info.extended others
        return ⟨o.flow.direction, .regular, header, [⟨info', x⟩]⟩ := by
  obtain ⟨start, count, m, segments, hsymbols, hmessage, hvalid, hsegments, hwire⟩ := h
  obtain ⟨s, hs, hinfo⟩ := Producer.sections_elementMessage hsymbols hmessage
  have hreceived := received_elementMessage hmessage hs
  obtain ⟨hsupported, -⟩ := Message.validate_eq_ok hvalid
  obtain ⟨header, parts, hheader, hparts, hbytes⟩ := Message.segments_eq_ok hsegments
  simp only [hs, List.mapM_cons, List.mapM_nil, bind_eq_ok, pure_eq_ok] at hparts
  obtain ⟨part, hpart, _, rfl, rfl⟩ := hparts
  -- the type and the direction of the message are those of any message of an element
  obtain ⟨htype, hdirection, hextended, hprbs⟩ : m.type = .regular ∧
      m.direction = o.flow.direction ∧ s.info.extended = !s.extensions.isEmpty ∧
        1 ≤ s.info.numPrb.toNat := by
    simp only [Producer.elementMessage, bind_eq_ok, pure_eq_ok] at hmessage
    obtain ⟨exts, -, rfl⟩ := hmessage
    obtain rfl := List.singleton_inj.mp hs
    exact ⟨rfl, rfl, rfl, he.numPrb_pos⟩
  obtain ⟨haccept, hlength⟩ := acceptHeader_encode hvalid hheader
    (fun hmixed => absurd (htype.symm.trans hmixed) (by decide)) (part.flatMap Segment.bytes)
  have hdata : packet.message = header ++ part.flatMap Segment.bytes := by
    rw [hwire, hbytes, List.flatten_singleton]
  rw [← hdata, hs, List.length_singleton] at haccept
  obtain ⟨others, -, hbody⟩ := body_encodeSection
    ⟨m.direction, m.header.onWire m.type, 1, m.type⟩ hpart hsupported (.inr hprbs)
  refine ⟨s.info, m.header.onWire m.type, others.flatMap Segment.bytes, hinfo, fun c htagging => ?_⟩
  have hread := hbody c htagging 0 []
  rw [List.append_nil, List.append_nil, ← hextended] at hread
  dsimp only at hread
  rw [htype, hextended, hreceived, ← hextended] at hread
  rw [message, haccept, ok_bind]
  dsimp only
  rw [hdata, ← hlength, List.drop_left, bodies, htype, hread, hdirection]
  rcases c.applyMap 0 (s.info.delivered c.carrierPrbs) with err | info'
  · rfl
  rcases extensions c s.info.extended (others.flatMap Segment.bytes) with err | ⟨x, rest⟩
  · rfl
  · rfl

/-! ## Packets with one section -/

/-- A packet with one section has that section to be read, or none when its message is refused. -/
lemma readable_of_single (h : declared? data = some 1) :
    readable c data = [] ∧ (∀ m, message c data ≠ .ok m) ∨
      ∃ m s, message c data = .ok m ∧ m.sections = [s] ∧ readable c data = [s.info] := by
  unfold declared? at h
  rcases haccept : acceptHeader data with err | parsed
  · rw [haccept] at h
    cases h
  rw [haccept] at h
  have hone : parsed.sections = 1 := Option.some.inj h
  rw [readable, message, haccept, ok_bind]
  dsimp only
  rw [hone, bodies]
  rcases hbody : body c parsed 0 (data.drop parsed.type.headerLength) with err | ⟨s, rest⟩
  · refine .inl ⟨leading_of_error 0 hbody, fun m hm => ?_⟩
    cases hm
  · exact .inr ⟨_, s, rfl, rfl, leading_of_ok 0 hbody⟩

lemma readable_ne_nil (hone : declared? data = some 1) (h : ∃ m, message c data = .ok m) :
    readable c data ≠ [] := by
  obtain ⟨m, hm⟩ := h
  obtain ⟨-, hnone⟩ | ⟨_, s, -, -, hread⟩ := readable_of_single (c := c) hone
  · exact absurd hm (hnone m)
  · rw [hread]
    exact List.cons_ne_nil _ _

lemma records_of_target (counts : ReceiveCounts) (store : SectionStore)
    (h : target? c data = some key) : Records c data counts store (decode c data counts store) := by
  unfold target? at h
  rcases haccept : acceptHeader data with err | parsed
  · rw [haccept] at h
    cases h
  · exact records_of_accepted haccept

/-- A packet with one section is a success when the section can be read and its bucket has room for
it.  It is then recorded behind what the bucket held. -/
lemma decode_single_iff (htarget : target? c data = some key) (hone : declared? data = some 1)
    (hkey : store.hasKey key = true) (hroom : (base c store key).length < store.capacity)
    (counts : ReceiveCounts) :
    ((∃ m, (decode c data counts store).1 = .ok m) ↔ readable c data ≠ []) ∧
      (readable c data ≠ [] → Updates store key (base c store key ++ readable c data)
        (decode c data counts store).2.2) := by
  have hrecords := records_of_target counts store htarget
  have hchanged : readable c data ≠ [] → changed? c data store = some key := by
    intro hne
    simp [changed?, htarget, Option.filter, hkey, hne]
  -- a single section is recorded whenever there is any room at all
  have hrecorded : readable c data ≠ [] → recorded c data store = readable c data ∧
      (readable c data).length = 1 := by
    intro hne
    obtain ⟨hnil, -⟩ | ⟨m, s, -, -, hread⟩ := readable_of_single (c := c) hone
    · exact absurd hnil hne
    · rw [recorded, hchanged hne, hread]
      dsimp only
      exact ⟨List.take_of_length_le (by rw [List.length_singleton]; omega), rfl⟩
  refine ⟨?_, fun hne => ?_⟩
  · rw [hrecords.success_iff, hone, Option.some_inj]
    constructor
    · intro hlength hnil
      have hnone : changed? c data store = none := by simp [changed?, htarget, hnil, Option.filter]
      rw [recorded, hnone] at hlength
      cases hlength
    · intro hne
      obtain ⟨hsame, hlength⟩ := hrecorded hne
      rw [hsame, hlength]
  · rw [← (hrecorded hne).1]
    exact hrecords.bucket_eq key (hchanged hne)

/-- A packet with one section that can be read and finds room is counted with it. -/
lemma counts_of_readable (htarget : target? c data = some key) (hone : declared? data = some 1)
    (hkey : store.hasKey key = true) (hroom : (base c store key).length < store.capacity)
    (counts : ReceiveCounts) (hreadable : readable c data ≠ []) :
    (decode c data counts store).2.1.packets = counts.packets + 1 ∧
      (decode c data counts store).2.1.sections = counts.sections + 1 ∧
      (decode c data counts store).2.1.failures = counts.failures := by
  have hrecords := decode_records c data counts store
  obtain ⟨m, hm⟩ := (decode_single_iff htarget hone hkey hroom counts).1.mpr hreadable
  have hdeclared := hrecords.success_iff.mp ⟨m, hm⟩
  have hsections := hrecords.sections_eq
  rw [← Option.some_inj.mp (hone.symm.trans hdeclared)] at hsections
  have hfailures := hrecords.failures_eq
  rw [hm] at hfailures
  exact ⟨hrecords.packets_eq, hsections, hfailures⟩

/-- The section of the packet of an element is the one that was recorded for it, as a receiver knows
it, unless it cannot be read. -/
lemma readable_of_isElementPacket (he : e.Usable) (hfollows : c.Follows settings o)
    (husesMap : c.usesMap = false) (h : Producer.IsElementPacket settings o e index packet) :
    readable c packet.message ≠ [] → readable c packet.message =
      (Producer.recordFor? settings o (e, index)).toList.map (·.delivered c.carrierPrbs) := by
  intro hne
  obtain ⟨info, header, others, hinfo, hmessage⟩ := message_of_isElementPacket he h
  have hone := (target?_of_isElementPacket hfollows.mu_eq h).2
  obtain ⟨hnil, -⟩ | ⟨m, s, hm, hs, hread⟩ := readable_of_single (c := c) hone
  · exact absurd hnil hne
  have hplain : c.applyMap 0 (info.delivered c.carrierPrbs) =
      .ok (info.delivered c.carrierPrbs) := by
    rw [FlowContext.applyMap, husesMap]
    rfl
  rw [hmessage c hfollows.tagging_eq, hplain, ok_bind, bind_eq_ok] at hm
  obtain ⟨⟨x, rest⟩, -, hm⟩ := hm
  obtain rfl := Except.ok.inj hm
  obtain rfl := List.singleton_inj.mp hs
  rw [hread, hinfo]
  rfl

/-- The section of the packet of an element can be read by a receiver that knows how many weights a
vector has, if the packet carries some. -/
lemma readable_ne_nil_of_knows (he : e.Usable)
    (hsized : e.weightUpdate = true → e.weights.WellSized) (hknows : c.Knows o e)
    (hfollows : c.Follows settings o) (husesMap : c.usesMap = false)
    (h : Producer.IsElementPacket settings o e index packet) : readable c packet.message ≠ [] := by
  have hone := (target?_of_isElementPacket hfollows.mu_eq h).2
  obtain ⟨start, count, m, segments, -, hmessage, hvalid, hsegments, hwire⟩ := h
  obtain ⟨hlegible, -⟩ := Producer.elementMessage_eq_ok he hsized hknows hmessage
  rw [← hfollows.tagging_eq] at hsegments
  have hread := yields_readMessage husesMap hvalid hsegments hlegible []
  rw [List.append_nil, ← hwire] at hread
  refine readable_ne_nil hone ⟨m.onWire c.carrierPrbs, ?_⟩
  rw [← parse_eq_message c _ {}]
  exact (hread.parse_eq {}).1

/-! ## Packets in a row -/

/-- Decode packets one after another, each with what is known of its flow: what each of them comes
to, and what is left of the receiver. -/
def decodeEach : List (FlowContext × Packet) → ReceiveCounts × SectionStore →
    List (Except Error Message) × ReceiveCounts × SectionStore
  | [], r => ([], r)
  | x :: rest, r =>
    let outcome := decode x.1 x.2.message r.1 r.2
    let others := decodeEach rest outcome.2
    (outcome.1 :: others.1, others.2)

/-- Packets with one section each, for one bucket that has room for all of them and is not taken for
one of an earlier slot. -/
structure Joins (sent : List (FlowContext × Packet)) (key : SectionKey) (store : SectionStore)
    (before : List Section) : Prop where
  single : ∀ x ∈ sent, target? x.1 x.2.message = some key ∧ declared? x.2.message = some 1
  hasKey : store.hasKey key = true
  room : before.length + sent.length ≤ store.capacity
  fresh : ∀ x ∈ sent, ∀ map ∈ x.1.map, before.length + sent.length ≤ map.size
  base_eq : ∀ x ∈ sent.head?, base x.1 store key = before

/-- The sections of packets, as far as they can be read. -/
def readableEach (sent : List (FlowContext × Packet)) : List Section :=
  sent.flatMap fun x => readable x.1 x.2.message

/-- Behind the first packet of a row the others are a row as well. -/
lemma Joins.tail {x : FlowContext × Packet} {rest : List (FlowContext × Packet)}
    {next : SectionStore} {before : List Section} (h : Joins (x :: rest) key store before)
    (hne : readable x.1 x.2.message ≠ [])
    (hnext : Updates store key (before ++ readable x.1 x.2.message) next) :
    Joins rest key next (before ++ readable x.1 x.2.message) := by
  obtain ⟨hx, hrest⟩ := List.forall_mem_cons.mp h.single
  have hroom := h.room
  rw [List.length_cons] at hroom
  have hlength : (before ++ readable x.1 x.2.message).length = before.length + 1 := by
    obtain ⟨hnil, -⟩ | ⟨m, s, -, -, hread⟩ := readable_of_single (c := x.1) hx.2
    · exact absurd hnil hne
    · rw [hread, List.length_append, List.length_singleton]
  have hfresh : ∀ y ∈ rest, ∀ map ∈ y.1.map,
      (before ++ readable x.1 x.2.message).length + rest.length ≤ map.size := by
    intro y hy map hmap
    have hsize := h.fresh y (List.mem_cons_of_mem x hy) map hmap
    rw [List.length_cons] at hsize
    omega
  refine ⟨hrest, (hnext.hasKey_eq key).trans h.hasKey, ?_, hfresh, ?_⟩
  · rw [hnext.capacity_eq]
    omega
  · -- a bucket that is still to be filled has fewer sections than the map has elements
    intro y hy
    have hmem := List.mem_of_mem_head? hy
    have hpos := List.length_pos_of_mem hmem
    rw [base, hnext.entries_self]
    rcases hmap : y.1.map with _ | map
    · rfl
    · have hsize := hfresh y hmem map hmap
      dsimp only
      rw [if_neg (by omega)]

/-- All packets of a row are successes when the section of each of them can be read, and then the
bucket gets their sections in their order. -/
lemma decodeEach_fills {sent : List (FlowContext × Packet)} {before : List Section}
    (h : Joins sent key store before) (hnil : sent = [] → store.entries key = before)
    (counts : ReceiveCounts) :
    ((∀ result ∈ (decodeEach sent (counts, store)).1, ∃ m, result = .ok m) ↔
        ∀ x ∈ sent, readable x.1 x.2.message ≠ []) ∧
      ((∀ x ∈ sent, readable x.1 x.2.message ≠ []) →
        Updates store key (before ++ readableEach sent) (decodeEach sent (counts, store)).2.2) := by
  induction sent generalizing before store counts with
  | nil =>
    refine ⟨iff_of_true (List.forall_mem_nil _) (List.forall_mem_nil _), fun _ => ?_⟩
    rw [readableEach, List.flatMap_nil, List.append_nil, ← hnil rfl]
    exact .refl store key
  | cons x rest ih =>
    obtain ⟨⟨htarget, hone⟩, -⟩ := List.forall_mem_cons.mp h.single
    have hbase : base x.1 store key = before := h.base_eq x rfl
    have hroom := h.room
    rw [List.length_cons] at hroom
    obtain ⟨hiff, hupdates⟩ := decode_single_iff htarget hone h.hasKey (by rw [hbase]; omega) counts
    rw [hbase] at hupdates
    rw [decodeEach, readableEach]
    dsimp only
    rw [List.forall_mem_cons, List.forall_mem_cons, hiff, List.flatMap_cons, ← List.append_assoc]
    by_cases hx : readable x.1 x.2.message = []
    · exact ⟨⟨fun hok => absurd hx hok.1, fun hok => absurd hx hok.1⟩, fun hok => absurd hx hok.1⟩
    -- what the first packet leaves in the bucket is what the others find there
    have hnext := hupdates hx
    obtain ⟨hothers, hlast⟩ := ih (h.tail hx hnext) (fun _ => hnext.entries_self)
      (decode x.1 x.2.message counts store).2.1
    exact ⟨and_congr_right fun _ => hothers, fun hok => hnext.trans (hlast hok.2)⟩

/-- A bucket without sections, and one that is taken for a bucket of an earlier slot, are empty for
the next packet. -/
lemma base_eq_nil (map : PrbMap) (h : store.entries key = [] ∨
    c.map = some map ∧ map.size ≤ (store.entries key).length) : base c store key = [] := by
  rw [base]
  obtain hnil | ⟨hmap, hfull⟩ := h
  · rw [hnil]
    rcases c.map with _ | known
    · rfl
    · exact ite_self []
  · rw [hmap]
    exact if_pos hfull

/-- The packets of elements are a row for a bucket that is empty for the first of them. -/
lemma joins_of_elements {map : PrbMap} {xs : List (PrbElement × ℕ)}
    {sent : List (FlowContext × Packet)}
    (h : List.Forall₂ (fun x y => Producer.IsElementPacket settings o x.1 x.2 y.2) xs sent)
    (hfollows : ∀ y ∈ sent, y.1.Follows settings o) (hmap : ∀ y ∈ sent, ∀ known ∈ y.1.map, known = map)
    (hkey : store.hasKey o.slotKey = true) (hroom : xs.length ≤ store.capacity)
    (hsize : xs.length ≤ map.size) (hbase : ∀ y ∈ sent, base y.1 store o.slotKey = []) :
    Joins sent o.slotKey store [] := by
  rw [h.length_eq] at hroom hsize
  refine ⟨fun y hy => ?_, hkey, ?_, fun y hy known hknown => ?_, ?_⟩
  · obtain ⟨x, -, hpacket⟩ := exists_of_mem_right h hy
    obtain ⟨htarget, hone⟩ := target?_of_isElementPacket (hfollows y hy).mu_eq hpacket
    rw [(hfollows y hy).bucketOf_eq] at htarget
    exact ⟨htarget, hone⟩
  · rwa [List.length_nil, Nat.zero_add]
  · rwa [List.length_nil, Nat.zero_add, hmap y hy known hknown]
  · exact fun y hy => hbase y (List.mem_of_mem_head? hy)

/-- What is read of the packets of elements are the sections that were recorded for them, as a
receiver knows them. -/
lemma readableEach_of_elements {xs : List (PrbElement × ℕ)} {sent : List (FlowContext × Packet)}
    {f : Section → Section}
    (h : List.Forall₂ (fun x y => Producer.IsElementPacket settings o x.1 x.2 y.2 ∧
      x.1.Usable ∧ y.1.Follows settings o ∧ y.1.usesMap = false ∧
      ∀ info ∈ Producer.recordFor? settings o x, info.delivered y.1.carrierPrbs = f info) xs sent)
    (hread : ∀ y ∈ sent, readable y.1 y.2.message ≠ []) :
    readableEach sent = (xs.filterMap (Producer.recordFor? settings o)).map f := by
  induction h with
  | nil => rfl
  | @cons x y xs sent hhead htail ih =>
    obtain ⟨hpacket, husable, hfollows, husesMap, hf⟩ := hhead
    obtain ⟨hy, hrest⟩ := List.forall_mem_cons.mp hread
    have hsection : readable y.1 y.2.message = (Producer.recordFor? settings o x).toList.map f := by
      rw [readable_of_isElementPacket husable hfollows husesMap hpacket hy]
      exact List.map_congr_left fun info hinfo => hf info (Option.mem_toList.mp hinfo)
    have hothers := ih hrest
    rw [readableEach] at hothers ⊢
    rw [List.flatMap_cons, hsection, hothers, Producer.filterMap_recordFor?_cons, List.map_append]

end Receiver

end OpenFronthaul
