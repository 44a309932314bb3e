import OpenFronthaul.Producer
import OpenFronthaul.Proofs.Ecpri.Header
import OpenFronthaul.Proofs.Message.RoundTrip
import OpenFronthaul.Proofs.Store.Changes

/-!
# What a producer sends

Building a map goes through its elements in order.  An element that has symbols in the slot becomes
a packet with a message of its own behind the header of the flow, with the next sequence number of
the flow (`IsFramed`), and any other element is skipped (`run_buildMap_framed`).  The producer keeps
its settings, records the sections of the packets in one bucket, takes numbers of one flow and goes
on with its counts (`Traces`).
-/

namespace OpenFronthaul

/-- What a packet holds behind the header of its flow. -/
def Packet.message (packet : Packet) : Bytes :=
  packet.wire.drop Ecpri.headerLength

namespace Producer

variable {p after : Producer} {o : Order}

/-! ## Elements -/

/-- The header of a packet stands in front of it and counts its bytes, and both fit a frame. -/
lemma addHeader_eq_ok {settings : ProducerSettings} {flow : Flow} {sequence : UInt8}
    {packet framed : Packet} (h : addHeader settings flow sequence packet = .ok framed) :
    ∃ header, Ecpri.setPayloadSize (settings.framer.header flow.carrier flow.antenna sequence)
        packet.wire.length = .ok header ∧
      framed.wire = header ++ packet.wire ∧
      framed.length + WeightBundles.ethernetLength ≤ settings.mtu := by
  simp only [addHeader, bind_eq_ok, check_eq_ok, pure_eq_ok, liftLink_eq_ok] at h
  obtain ⟨header, hheader, hfits, rfl⟩ := h
  rw [← Packet.length_wire] at hheader
  refine ⟨header, hheader, ?_, Nat.le_of_not_lt hfits⟩
  rw [Packet.wire, Packet.prepend, List.flatMap_cons]
  rfl

lemma message_addHeader {settings : ProducerSettings} {flow : Flow} {sequence : UInt8}
    {packet framed : Packet} (h : addHeader settings flow sequence packet = .ok framed) :
    framed.message = packet.wire := by
  obtain ⟨header, hheader, hwire, -⟩ := addHeader_eq_ok h
  obtain ⟨hlength, -⟩ := Ecpri.parse_setPayloadSize hheader
  rw [Packet.message, hwire, ← hlength, List.drop_left]

/-- A packet with the message of an element, which has the given place in the map. -/
def IsElementPacket (settings : ProducerSettings) (o : Order) (e : PrbElement) (index : ℕ)
    (packet : Packet) : Prop :=
  ∃ start symbols m segments,
    elementSymbols settings.frame o.flow.direction o.slot e = some (start, symbols) ∧
    elementMessage settings o.flow.direction o.slot o.category e index start symbols = .ok m ∧
    m.validate = .ok () ∧ m.segments settings.mu settings.tagging = .ok segments ∧
    packet.message = segments.flatMap Segment.bytes

/-- Whether an order leaves an element any symbols. -/
def keeps (settings : ProducerSettings) (o : Order) (e : PrbElement) : Bool :=
  (elementSymbols settings.frame o.flow.direction o.slot e).isSome

/-- A packet with the message of an element behind the header with the given sequence number. -/
def IsFramed (settings : ProducerSettings) (o : Order) (sequence : UInt8) (e : PrbElement)
    (index : ℕ) (packet : Packet) : Prop :=
  ∃ start symbols m segments pooled,
    elementSymbols settings.frame o.flow.direction o.slot e = some (start, symbols) ∧
    elementMessage settings o.flow.direction o.slot o.category e index start symbols = .ok m ∧
    m.validate = .ok () ∧ m.segments settings.mu settings.tagging = .ok segments ∧
    addHeader settings o.flow sequence { segments, pooled } = .ok packet

lemma IsFramed.isElementPacket {settings : ProducerSettings} {sequence : UInt8} {e : PrbElement}
    {index : ℕ} {packet : Packet} (h : IsFramed settings o sequence e index packet) :
    IsElementPacket settings o e index packet := by
  obtain ⟨start, symbols, m, segments, pooled, hsymbols, hmessage, hvalid, hsegments, hframed⟩ := h
  exact ⟨start, symbols, m, segments, hsymbols, hmessage, hvalid, hsegments,
    message_addHeader hframed⟩

/-! ## Sections of elements -/

/-- Whether the section of an element has extensions. -/
def isExtended (e : PrbElement) (category : Category) : Bool :=
  e.compression = .modulation ∨ category = .b ∧ e.weightUpdate = true

lemma isEmpty_elementExtensions {e : PrbElement} {category : Category} {mtu : ℕ}
    {extensions : List Extension} (h : elementExtensions e category mtu = .ok extensions) :
    (!extensions.isEmpty) = isExtended e category := by
  rw [elementExtensions] at h
  rw [isExtended]
  by_cases hweights : category = .b ∧ e.weightUpdate = true
  · simp only [if_pos hweights, bind_eq_ok, pure_eq_ok] at h
    obtain ⟨x, -, rfl⟩ := h
    simp [hweights]
  · simp only [if_neg hweights, pure_eq_ok] at h
    subst h
    by_cases hscaling : e.compression = .modulation
    · simp [hscaling]
    · simp [hscaling, hweights]

/-- The section that is recorded for an element at a place of its map; a skipped element has none. -/
def recordFor? (settings : ProducerSettings) (o : Order) (x : PrbElement × ℕ) : Option Section :=
  (elementSymbols settings.frame o.flow.direction o.slot x.1).map fun symbols =>
    { elementSection x.1 x.2 symbols.1 symbols.2 with extended := isExtended x.1 o.category }

lemma recordFor?_eq_some {settings : ProducerSettings} {x : PrbElement × ℕ} {info : Section} :
    recordFor? settings o x = some info ↔ ∃ start count,
      elementSymbols settings.frame o.flow.direction o.slot x.1 = some (start, count) ∧
      { elementSection x.1 x.2 start count with extended := isExtended x.1 o.category } = info := by
  rw [recordFor?, Option.map_eq_some_iff]
  exact Prod.exists

lemma id_of_recordFor? {settings : ProducerSettings} {x : PrbElement × ℕ} {info : Section}
    (h : recordFor? settings o x = some info) : info.id = UInt16.ofNat x.2 := by
  obtain ⟨start, count, -, rfl⟩ := recordFor?_eq_some.mp h
  rfl

lemma isSome_recordFor? (settings : ProducerSettings) (o : Order) (x : PrbElement × ℕ) :
    (recordFor? settings o x).isSome = keeps settings o x.1 := by
  rw [recordFor?, Option.isSome_map, keeps]

lemma length_filterMap_recordFor? (settings : ProducerSettings) (o : Order)
    (xs : List (PrbElement × ℕ)) :
    (xs.filterMap (recordFor? settings o)).length =
      (xs.filter fun x => keeps settings o x.1).length := by
  rw [List.length_filterMap_eq_countP, List.countP_eq_length_filter]
  simp only [isSome_recordFor?]

lemma filterMap_recordFor?_cons (settings : ProducerSettings) (o : Order) (x : PrbElement × ℕ)
    (xs : List (PrbElement × ℕ)) :
    (x :: xs).filterMap (recordFor? settings o) =
      (recordFor? settings o x).toList ++ xs.filterMap (recordFor? settings o) := by
  rw [List.filterMap_cons]
  cases recordFor? settings o x with
  | none => rfl
  | some info => rfl

/-- The message of an element has one section, the one that is recorded for it. -/
lemma sections_elementMessage {settings : ProducerSettings} {e : PrbElement}
    {index start count : ℕ} {m : Message}
    (hsymbols : elementSymbols settings.frame o.flow.direction o.slot e = some (start, count))
    (h : elementMessage settings o.flow.direction o.slot o.category e index start count = .ok m) :
    ∃ s, m.sections = [s] ∧ recordFor? settings o (e, index) = some s.info := by
  simp only [elementMessage, bind_eq_ok, pure_eq_ok] at h
  obtain ⟨extensions, hextensions, rfl⟩ := h
  refine ⟨_, rfl, ?_⟩
  rw [recordFor?, hsymbols, ← isEmpty_elementExtensions hextensions]
  rfl

/-! ## What stays, and what goes on -/

/-- What a producer is like after it went through some elements and sent some packets. -/
structure Passes (o : Order) (p after : Producer) (elements sent : ℕ) : Prop where
  settings : after.settings = p.settings
  sequence : after.nextSequence o.flow = p.nextSequence o.flow + UInt8.ofNat sent
  packets : after.counts.packets = p.counts.packets + sent
  sections : after.counts.sections = p.counts.sections + sent
  skipped : after.counts.skipped + sent = p.counts.skipped + elements

/-- What a producer leaves behind when it went through some elements: the sections that it recorded,
and how many numbers of the flow it took.  No other bucket and no other flow is touched. -/
structure Traces (o : Order) (p after : Producer) (infos : List Section) (elements numbers : ℕ) :
    Prop where
  settings : after.settings = p.settings
  store : SectionStore.Updates p.store o.key (p.store.entries o.key ++ infos) after.store
  sequence : ∀ flow, after.nextSequence flow =
    if flow = o.flow then p.nextSequence flow + UInt8.ofNat numbers else p.nextSequence flow
  packets : after.counts.packets = p.counts.packets + infos.length
  sections : after.counts.sections = p.counts.sections + infos.length
  skipped : after.counts.skipped + infos.length = p.counts.skipped + elements

namespace Traces

variable {infos more : List Section} {elements elements' numbers numbers' : ℕ}

lemma refl (o : Order) (p : Producer) : Traces o p p [] 0 0 where
  settings := rfl
  store := by
    rw [List.append_nil]
    exact .refl p.store o.key
  sequence flow := by simp
  packets := rfl
  sections := rfl
  skipped := rfl

lemma trans {next : Producer} (h : Traces o p next infos elements numbers)
    (h' : Traces o next after more elements' numbers') :
    Traces o p after (infos ++ more) (elements + elements') (numbers + numbers') where
  settings := h'.settings.trans h.settings
  store := by
    have hstore := h'.store
    rw [h.store.entries_self, List.append_assoc] at hstore
    exact h.store.trans hstore
  sequence flow := by
    rw [h'.sequence, h.sequence]
    split_ifs
    · rw [UInt8.ofNat_add, UInt8.add_assoc]
    · rfl
  packets := by rw [h'.packets, h.packets, List.length_append, Nat.add_assoc]
  sections := by rw [h'.sections, h.sections, List.length_append, Nat.add_assoc]
  skipped := by
    have := h.skipped
    have := h'.skipped
    rw [List.length_append]
    omega

/-- The accounts of memory are none of the traces. -/
lemma congr_memory (h : Traces o p after infos elements numbers) (memory : Memory) :
    Traces o p { after with memory } infos elements numbers :=
  ⟨h.settings, h.store, h.sequence, h.packets, h.sections, h.skipped⟩

/-- Where each section has a packet with a number of its own, packets tell all of the counts. -/
lemma passes (h : Traces o p after infos elements infos.length) :
    Passes o p after elements infos.length where
  settings := h.settings
  sequence := by rw [h.sequence, if_pos rfl]
  packets := h.packets
  sections := h.sections
  skipped := h.skipped

end Traces

/-! ## Steps -/

/-- The producer after it took a number of a flow. -/
def tookNumber (p : Producer) (flow : Flow) (memory : Memory) : Producer :=
  { p with memory, sequences := p.sequences.insert flow (p.nextSequence flow + 1) }

lemma nextSequence_tookNumber (p : Producer) (flow other : Flow) (memory : Memory) :
    (p.tookNumber flow memory).nextSequence other =
      if other = flow then p.nextSequence other + 1 else p.nextSequence other := by
  rw [nextSequence, tookNumber, Std.HashMap.getD_insert]
  by_cases h : other = flow
  · subst h
    simp
  · simp [h, Ne.symm h, nextSequence]

/-- Writing a message changes the accounts of memory alone. -/
lemma run_encodeMessage (m : Message) (p : Producer) :
    (encodeMessage m).run p =
      (((m.encode p.settings.mu p.settings.tagging).run p.memory).1,
        { p with memory := ((m.encode p.settings.mu p.settings.tagging).run p.memory).2 }) := by
  rw [encodeMessage, run_bind, run_get]
  dsimp only
  rcases (m.encode p.settings.mu p.settings.tagging).run p.memory with ⟨e | packet, memory⟩
  · rfl
  · rfl

/-- A message that cannot be written takes no number.  Any other one takes the next number of the
flow, and is dropped when the header does not take it. -/
lemma run_frameMessage (flow : Flow) (m : Message) (p : Producer) :
    (frameMessage flow m).run p =
      match (m.encode p.settings.mu p.settings.tagging).run p.memory with
      | (.error e, memory) => (.error e, { p with memory })
      | (.ok unframed, memory) =>
        match addHeader p.settings flow (p.nextSequence flow) unframed with
        | .error e => (.error e, p.tookNumber flow (memory.dropAll [unframed]))
        | .ok packet => (.ok packet, p.tookNumber flow memory) := by
  rw [frameMessage, run_bind, run_encodeMessage]
  rcases (m.encode p.settings.mu p.settings.tagging).run p.memory with ⟨e | unframed, memory⟩
  · rfl
  have hnumber : (takeSequence flow).run { p with memory } =
      (.ok (p.nextSequence flow), p.tookNumber flow memory) := rfl
  have hsettings : (p.tookNumber flow memory).settings = p.settings := rfl
  dsimp only
  rw [run_bind, hnumber]
  dsimp only
  rw [run_bind, run_get]
  dsimp only
  rw [hsettings]
  rcases addHeader p.settings flow (p.nextSequence flow) unframed with e | packet
  · rfl
  · rfl

/-- A packet holds the same with the header of its flow as without it. -/
lemma holds_addHeader {settings : ProducerSettings} {flow : Flow} {sequence : UInt8}
    {unframed packet : Packet} {memory held : Memory}
    (h : addHeader settings flow sequence unframed = .ok packet)
    (hheld : memory.Holds held [unframed]) : memory.Holds held [packet] := by
  simp only [addHeader, bind_eq_ok, check_eq_ok, pure_eq_ok] at h
  obtain ⟨header, -, -, rfl⟩ := h
  exact hheld.prepend header

/-- A section is recorded by the store alone. -/
lemma run_recordSection (key : SectionKey) (info : Section) (p : Producer) :
    (recordSection key info).run p =
      match p.store.add key info with
      | .ok store => (.ok (), { p with store })
      | .error e => (.error e, p) := by
  rw [recordSection, run_bind, run_get]
  dsimp only
  rcases p.store.add key info with e | store
  · rfl
  · rfl

/-- A handler that drops packets and fails again passes the failure on. -/
lemma run_dropPackets_throw {α : Type} (packets : List Packet) (e : Error) (p : Producer) :
    (do dropPackets packets; throw e : Step α).run p =
      (.error e, { p with memory := p.memory.dropAll packets }) := by
  rw [run_bind, dropPackets, run_modify]
  rfl

/-- An element fails, and the last argument says whether a number of the flow was spent on it: none
when its message cannot be put together or written, one when the packet does not fit its header or
a frame, or when its section has no place in the store. -/
inductive Fails (p : Producer) (o : Order) (x : PrbElement × ℕ) (e : Error) : Bool → Prop
  | unsendable {start count : ℕ}
      (symbols : elementSymbols p.settings.frame o.flow.direction o.slot x.1 = some (start, count))
      (message : elementMessage p.settings o.flow.direction o.slot o.category x.1 x.2 start count =
        .error e) : Fails p o x e false
  | unwritten {start count : ℕ} {m : Message} {memory : Memory}
      (symbols : elementSymbols p.settings.frame o.flow.direction o.slot x.1 = some (start, count))
      (message : elementMessage p.settings o.flow.direction o.slot o.category x.1 x.2 start count =
        .ok m)
      (encode : (m.encode p.settings.mu p.settings.tagging).run p.memory = (.error e, memory)) :
      Fails p o x e false
  | unframed {start count : ℕ} {m : Message} {packet : Packet} {memory : Memory}
      (symbols : elementSymbols p.settings.frame o.flow.direction o.slot x.1 = some (start, count))
      (message : elementMessage p.settings o.flow.direction o.slot o.category x.1 x.2 start count =
        .ok m)
      (encode : (m.encode p.settings.mu p.settings.tagging).run p.memory = (.ok packet, memory))
      (header : addHeader p.settings o.flow (p.nextSequence o.flow) packet = .error e) :
      Fails p o x e true
  | unrecorded {info : Section}
      (sent : recordFor? p.settings o x = some info)
      (record : p.store.add o.key info = .error e) : Fails p o x e true

/-- How the step of an element ends, and what the producer is like then: no packet is held but one
that is sent. -/
inductive Ends (p : Producer) (o : Order) (x : PrbElement × ℕ) :
    Except Error (Option Packet) → Producer → Prop
  | skipped (symbols : keeps p.settings o x.1 = false) :
      Ends p o x (.ok none) { p with counts := { p.counts with skipped := p.counts.skipped + 1 } }
  | unnumbered {e : Error} {memory : Memory} (fails : Fails p o x e false)
      (held : p.memory.Holds memory []) :
      Ends p o x (.error e) { p with memory }
  | numbered {e : Error} {memory : Memory} (fails : Fails p o x e true)
      (held : p.memory.Holds memory []) :
      Ends p o x (.error e) (p.tookNumber o.flow memory)
  | sent {packet : Packet} {info : Section} {store : SectionStore} {memory : Memory}
      (framed : IsFramed p.settings o (p.nextSequence o.flow) x.1 x.2 packet)
      (section_eq : recordFor? p.settings o x = some info)
      (record : p.store.add o.key info = .ok store)
      (slot : p.memory.Takes memory) (held : p.memory.Holds memory [packet]) :
      Ends p o x (.ok (some packet))
        { p.tookNumber o.flow memory with
          store
          counts := { p.counts with
            packets := p.counts.packets + 1, sections := p.counts.sections + 1 } }

/-- Everything that the step of an element can come to. -/
lemma ends_buildElement (p : Producer) (o : Order) (index : ℕ) (e : PrbElement) :
    Ends p o (e, index) ((buildElement o index e).run p).1 ((buildElement o index e).run p).2 := by
  rw [buildElement, run_bind, run_get]
  dsimp only
  rcases hsymbols : elementSymbols p.settings.frame o.flow.direction o.slot e with _ | ⟨start, n⟩
  · exact .skipped (by rw [keeps, hsymbols]; rfl)
  dsimp only
  rw [run_bind, run_lift]
  rcases hmessage : elementMessage p.settings o.flow.direction o.slot o.category e index start n
    with err | m
  · exact .unnumbered (.unsendable hsymbols hmessage) (.refl _)
  obtain ⟨s, hsections, hinfo⟩ := sections_elementMessage hsymbols hmessage
  dsimp only
  rw [run_bind, run_frameMessage]
  rcases hencode : (m.encode p.settings.mu p.settings.tagging).run p.memory with
    ⟨err | unframed, memory⟩
  · exact .unnumbered (.unwritten hsymbols hmessage hencode)
      (Message.holds_of_run_encode_error hencode)
  have hheld := Message.holds_of_run_encode hencode
  dsimp only
  rcases hheader : addHeader p.settings o.flow (p.nextSequence o.flow) unframed with err | packet
  · exact .numbered (.unframed hsymbols hmessage hencode hheader) hheld.dropAll
  have hheld := holds_addHeader hheader hheld
  rw [hsections]
  dsimp only
  rw [run_bind, run_tryCatch, run_forM_cons, run_recordSection]
  have hstore : (p.tookNumber o.flow memory).store = p.store := rfl
  rw [hstore]
  rcases hadd : p.store.add o.key s.info with err | store
  · dsimp only
    rw [run_dropPackets_throw]
    exact .numbered (.unrecorded hinfo hadd) hheld.dropAll
  · obtain ⟨hvalid, hsegments⟩ := Message.run_encode_eq_ok hencode
    exact .sent ⟨start, n, m, unframed.segments, unframed.pooled, hsymbols, hmessage, hvalid,
      hsegments, hheader⟩ hinfo hadd (Message.takes_of_run_encode hencode) hheld

/-- One number of the flow was taken, and the recorded sections are what the store shows. -/
lemma traces_tookNumber {infos : List Section} {elements : ℕ} {memory : Memory}
    {store : SectionStore} {counts : ProducerCounts}
    (hstore : SectionStore.Updates p.store o.key (p.store.entries o.key ++ infos) store)
    (hpackets : counts.packets = p.counts.packets + infos.length)
    (hsections : counts.sections = p.counts.sections + infos.length)
    (hskipped : counts.skipped + infos.length = p.counts.skipped + elements) :
    Traces o p { p.tookNumber o.flow memory with store, counts } infos elements 1 where
  settings := rfl
  store := hstore
  sequence other := p.nextSequence_tookNumber o.flow other memory
  packets := hpackets
  sections := hsections
  skipped := hskipped

/-- An element that keeps symbols becomes a packet with its message, and any other one is
skipped. -/
lemma run_buildElement_eq_ok {index : ℕ} {e : PrbElement} {packet? : Option Packet}
    (h : (buildElement o index e).run p = (.ok packet?, after)) :
    Traces o p after (recordFor? p.settings o (e, index)).toList 1 packet?.toList.length ∧
      packet?.isSome = keeps p.settings o e ∧
      ∀ packet ∈ packet?, IsFramed p.settings o (p.nextSequence o.flow) e index packet := by
  have hends := ends_buildElement p o index e
  rw [h] at hends
  cases hends with
  | skipped hskip =>
    refine ⟨?_, hskip.symm, nofun⟩
    have hnone : recordFor? p.settings o (e, index) = none := by
      rw [← Option.isNone_iff_eq_none, ← Option.isSome_eq_false_iff, isSome_recordFor?, hskip]
    rw [hnone]
    exact { Traces.refl o p with skipped := rfl }
  | sent hframed hinfo hadd =>
    refine ⟨?_, by rw [← isSome_recordFor? _ _ (e, index), hinfo]; rfl, ?_⟩
    · rw [hinfo]
      exact traces_tookNumber (SectionStore.updates_of_add hadd) rfl rfl rfl
    · rintro _ ⟨⟩
      exact hframed

/-- An element that fails has no section, but the number that was spent on it stays taken. -/
lemma run_buildElement_eq_error {index : ℕ} {e : PrbElement} {err : Error}
    (h : (buildElement o index e).run p = (.error err, after)) :
    ∃ numbered, Fails p o (e, index) err numbered ∧ Traces o p after [] 0 numbered.toNat := by
  have hends := ends_buildElement p o index e
  rw [h] at hends
  cases hends with
  | unnumbered hfails => exact ⟨false, hfails, (Traces.refl o p).congr_memory _⟩
  | numbered hfails =>
    refine ⟨true, hfails, traces_tookNumber ?_ rfl rfl rfl⟩
    rw [List.append_nil]
    exact .refl p.store o.key

/-! ## Maps -/

/-- The step of the elements of a map, with the handlers of the failures run. -/
lemma run_buildElements_cons (index : ℕ) (e : PrbElement) (elements : List PrbElement)
    (p : Producer) :
    (buildElements o index (e :: elements)).run p =
      match (buildElement o index e).run p with
      | (.error err, next) => (.error err, next)
      | (.ok packet?, next) =>
        match (buildElements o (index + 1) elements).run next with
        | (.error err, last) =>
          (.error err, { last with memory := last.memory.dropAll packet?.toList })
        | (.ok packets, last) => (.ok (packet?.toList ++ packets), last) := by
  rw [buildElements, run_bind]
  rcases (buildElement o index e).run p with ⟨err | packet?, next⟩
  · rfl
  dsimp only
  rw [run_bind, run_tryCatch]
  rcases (buildElements o (index + 1) elements).run next with ⟨err | packets, last⟩
  · dsimp only
    rw [run_dropPackets_throw]
  · rfl

/-- The elements that keep symbols become packets with their messages, in order.  The sequence
numbers are counted from the one that was next when some packets had not been sent yet. -/
lemma run_buildElements_eq_ok {first : UInt8} {sent index : ℕ} {elements : List PrbElement}
    {packets : List Packet} (hfirst : p.nextSequence o.flow = first + UInt8.ofNat sent)
    (h : (buildElements o index elements).run p = (.ok packets, after)) :
    Traces o p after ((elements.zipIdx index).filterMap (recordFor? p.settings o)) elements.length
        packets.length ∧
      List.Forall₂
        (fun x packet => IsFramed p.settings o (first + UInt8.ofNat x.2) x.1.1 x.1.2 packet)
        (((elements.zipIdx index).filter fun x => keeps p.settings o x.1).zipIdx sent) packets := by
  induction elements generalizing index p sent packets after with
  | nil =>
    cases h
    exact ⟨Traces.refl o _, .nil⟩
  | cons e elements ih =>
    rw [run_buildElements_cons] at h
    rcases helement : (buildElement o index e).run p with ⟨err | packet?, next⟩
    · rw [helement] at h
      cases h
    rw [helement] at h
    obtain ⟨hnext, hkeeps, hpacket⟩ := run_buildElement_eq_ok helement
    rcases hrest : (buildElements o (index + 1) elements).run next with ⟨err | others, last⟩
    · dsimp only at h
      rw [hrest] at h
      cases h
    dsimp only at h
    rw [hrest] at h
    cases h
    have hsequence : next.nextSequence o.flow =
        first + UInt8.ofNat (sent + packet?.toList.length) := by
      rw [hnext.sequence, if_pos rfl, hfirst, UInt8.ofNat_add, UInt8.add_assoc]
    obtain ⟨hlast, hothers⟩ := ih hsequence hrest
    rw [hnext.settings] at hothers hlast
    refine ⟨?_, ?_⟩
    · rw [List.zipIdx_cons, filterMap_recordFor?_cons, List.length_cons,
        Nat.add_comm elements.length, List.length_append]
      exact hnext.trans hlast
    rw [List.zipIdx_cons, List.filter_cons, ← hkeeps]
    cases packet? with
    | none => exact hothers
    | some packet =>
      refine .cons ?_ hothers
      rw [← hfirst]
      exact hpacket packet rfl

/-- What is sent for a map: a packet for each element that keeps symbols in the slot, in order, with
the sequence numbers of the flow from the next one on.  Their sections are recorded. -/
lemma run_buildMap_traces {map : PrbMap} {packets : List Packet}
    (h : (buildMap o map).run p = (.ok packets, after)) :
    Traces o p after (map.elements.zipIdx.filterMap (recordFor? p.settings o)) map.size
        packets.length ∧
      List.Forall₂
        (fun x packet =>
          IsFramed p.settings o (p.nextSequence o.flow + UInt8.ofNat x.2) x.1.1 x.1.2 packet)
        (map.elements.zipIdx.filter fun x => keeps p.settings o x.1).zipIdx packets := by
  have hall : (map.elements.take map.size).drop 0 = map.elements := by
    rw [List.drop_zero, PrbMap.size, List.take_length]
  rw [buildMap, buildRange, hall] at h
  exact run_buildElements_eq_ok (UInt8.add_zero _).symm h

/-- The counts of a producer tell what was sent for a map. -/
theorem run_buildMap_framed {map : PrbMap} {packets : List Packet}
    (h : (buildMap o map).run p = (.ok packets, after)) :
    Passes o p after map.size packets.length ∧
      List.Forall₂
        (fun x packet =>
          IsFramed p.settings o (p.nextSequence o.flow + UInt8.ofNat x.2) x.1.1 x.1.2 packet)
        (map.elements.zipIdx.filter fun x => keeps p.settings o x.1).zipIdx packets := by
  obtain ⟨htraces, hpackets⟩ := run_buildMap_traces h
  have hlength : packets.length =
      (map.elements.zipIdx.filterMap (recordFor? p.settings o)).length := by
    rw [length_filterMap_recordFor?, ← hpackets.length_eq, List.length_zipIdx]
  rw [hlength] at htraces ⊢
  exact ⟨htraces.passes, hpackets⟩

/-- What the packets of a map hold behind their headers. -/
lemma run_buildMap_eq_ok {map : PrbMap} {packets : List Packet}
    (h : (buildMap o map).run p = (.ok packets, after)) :
    after.settings = p.settings ∧
      List.Forall₂ (fun x packet => IsElementPacket p.settings o x.1 x.2 packet)
        (map.elements.zipIdx.filter fun x => keeps p.settings o x.1) packets := by
  obtain ⟨hpasses, hpackets⟩ := run_buildMap_framed h
  exact ⟨hpasses.settings, forall₂_of_zipIdx (hpackets.imp fun _ _ hx => hx.isElementPacket)⟩

end Producer

end OpenFronthaul
