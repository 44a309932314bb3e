import OpenFronthaul.Message.Encode
import OpenFronthaul.Packet
import OpenFronthaul.Proofs.Extension.RoundTrip
import OpenFronthaul.Proofs.Memory
import OpenFronthaul.Proofs.Message.Section
import OpenFronthaul.Proofs.Receiver.Reading

/-!
# Messages are read as they are written

A packet that was made from a message is read back as that message (`Receiver.parse_encoded`), up to
what the wire does not carry (`Message.received`).  The parts follow one another without a separator,
so every part is shown to be read off the front of any data, and to leave the rest.
-/

namespace OpenFronthaul

open Extension

/-! ## Segments -/

namespace Segment

lemma flatMap_join (bytes : Bytes) (segments : List Segment) :
    (join bytes segments).flatMap Segment.bytes = bytes ++ segments.flatMap Segment.bytes := by
  unfold join
  split
  · simp [Segment.bytes]
  · split_ifs with hempty
    · simp [List.isEmpty_iff.mp hempty]
    · simp [Segment.bytes]

/-- Joining segments changes nothing on the wire. -/
lemma flatMap_coalesce (segments : List Segment) :
    (coalesce segments).flatMap bytes = segments.flatMap bytes := by
  induction segments with
  | nil => rfl
  | cons s segments ih =>
    cases s with
    | owned bytes =>
      rw [coalesce, flatMap_join, ih]
      rfl
    | shared buffer =>
      rw [coalesce, List.flatMap_cons, List.flatMap_cons, ih]

end Segment

/-! ## What a receiver knows of a message -/

/-- A section with its extensions as a receiver knows it. -/
def ExtendedSection.received (s : ExtendedSection) (type : SectionType) (header : MessageHeader)
    (carrierPrbs : Option UInt16) : ExtendedSection where
  info := s.info.received type header carrierPrbs (!s.extensions.isEmpty)
  extensions := s.extensions.map Extension.received

namespace Message

/-- A message as a receiver knows it that has been told the resource blocks of the carrier, or has
not. -/
def received (m : Message) (carrierPrbs : Option UInt16) : Message :=
  { m with
    header := m.header.received m.type
    sections := m.sections.map
      (·.received m.type (m.header.received m.type) carrierPrbs) }

/-- A message as it is read from the wire, where four bits are left for the sample width. -/
def onWire (m : Message) (carrierPrbs : Option UInt16) : Message :=
  { m with
    header := m.header.onWire m.type
    sections := m.sections.map (·.received m.type (m.header.onWire m.type) carrierPrbs) }

/-- What must hold of a message for its packet to say what is on the wire, to a receiver that knows
the number of weights in a vector, or does not. -/
structure Legible (m : Message) (weights : Option UInt16) : Prop where
  mixed_le : m.type = .mixed → m.header.fftSize.toNat ≤ 15 ∧ m.header.spacing.toNat ≤ 15
  prbs : ∀ s ∈ m.sections, s.info.allPrbs = true ∨ 1 ≤ s.info.numPrb.toNat
  delimited : ∀ s ∈ m.sections, ∀ e ∈ s.extensions, e.Delimited weights

/-- What must hold of a message for its packet to say all of it, to a receiver that knows the number
of weights in a vector. -/
structure Readable (m : Message) (weights : UInt16) : Prop where
  iqWidth_pos : 1 ≤ m.header.iqWidth.toNat
  iqWidth_le : m.header.iqWidth.toNat ≤ 16
  mixed_le : m.type = .mixed → m.header.fftSize.toNat ≤ 15 ∧ m.header.spacing.toNat ≤ 15
  prbs : ∀ s ∈ m.sections, s.info.allPrbs = true ∨ 1 ≤ s.info.numPrb.toNat
  sized : ∀ s ∈ m.sections, ∀ e ∈ s.extensions, e.Sized weights.toNat

variable {m : Message}

lemma Readable.legible {weights : UInt16} (h : m.Readable weights) : m.Legible (some weights) where
  mixed_le := h.mixed_le
  prbs := h.prbs
  delimited s hs e he := (h.sized s hs e he).delimited

lemma Readable.onWire_eq {weights : UInt16} (h : m.Readable weights) (carrierPrbs : Option UInt16) :
    m.onWire carrierPrbs = m.received carrierPrbs := by
  rw [onWire, received, MessageHeader.onWire_eq_received h.iqWidth_pos h.iqWidth_le]

end Message

/-! ## Extensions and sections -/

namespace Receiver

variable {c : FlowContext}

lemma lengthMismatches_inspect {slot : ℕ} {d : Decoded} (h : d.length = d.consumed)
    (counts : ReceiveCounts) :
    (inspect c slot d counts).lengthMismatches = counts.lengthMismatches := by
  have hmismatch : d.mismatch = false := by simp [Decoded.mismatch, h]
  simp only [inspect, hmismatch, Bool.false_eq_true, if_false]
  split
  · split_ifs
    · rfl
    · rfl
  · rfl

/-- A chain of extensions is read as it was written.  By induction on the chain: the first extension
leaves the bytes of the others. -/
lemma yields_decodeChain {exts : List Extension} {segments : List Segment} {room : ℕ}
    (h : Message.encodeChain exts = .ok segments)
    (hdelimited : ∀ e ∈ exts, e.Delimited c.weights) (hne : exts ≠ [])
    (hroom : exts.length ≤ room) (slot : ℕ) (rest : Bytes) :
    Yields (decodeChain c slot room (segments.flatMap Segment.bytes ++ rest))
      (exts.map Extension.received, rest) := by
  induction exts generalizing segments room with
  | nil => exact absurd rfl hne
  | cons e exts ih =>
    obtain ⟨room, rfl⟩ : ∃ left, room = left + 1 :=
      Nat.exists_eq_add_one.mpr (by simp at hroom; omega)
    simp only [Message.encodeChain, bind_eq_ok, pure_eq_ok] at h
    obtain ⟨encoded, hencoded, others, hothers, rfl⟩ := h
    obtain ⟨hhead, htail⟩ := List.forall_mem_cons.mp hdelimited
    have hdecode := decode_encode hencoded hhead (others.flatMap Segment.bytes ++ rest)
    have hwire : (encoded.segments ++ others).flatMap Segment.bytes ++ rest =
        encoded.wire ++ (others.flatMap Segment.bytes ++ rest) := by
      rw [List.flatMap_append, List.append_assoc]
      rfl
    rw [hwire, decodeChain]
    refine (yields_lift hdecode).bind ?_
    refine (yields_count (lengthMismatches_inspect rfl)).bind ?_
    dsimp only
    rw [List.drop_left]
    -- the flag of the extension says whether the chain goes on
    cases exts with
    | nil =>
      obtain rfl := pure_eq_ok.mp hothers
      exact yields_pure _
    | cons next exts =>
      refine (ih hothers htail (List.cons_ne_nil _ _) (by simpa using hroom)).bind ?_
      exact yields_pure _

lemma isSounding_eq_false (h : c.usesMap = false) : c.isSounding = false := by
  unfold FlowContext.usesMap at h
  exact (Bool.or_eq_false_iff.mp h).1

/-- The extensions of a section, or none, are read as they were written. -/
lemma yields_readExtensions {exts : List Extension} {segments : List Segment}
    (hmap : c.usesMap = false) (h : Message.encodeChain exts = .ok segments)
    (hdelimited : ∀ e ∈ exts, e.Delimited c.weights) (hlength : exts.length ≤ maxExtensions)
    (slot : ℕ) (rest : Bytes) :
    Yields (readExtensions c slot (!exts.isEmpty) (segments.flatMap Segment.bytes ++ rest))
      (exts.map Extension.received, rest) := by
  cases exts with
  | nil =>
    obtain rfl := pure_eq_ok.mp h
    exact yields_pure _
  | cons e exts =>
    have hchain := yields_decodeChain h hdelimited (List.cons_ne_nil _ _) hlength slot rest
    rw [readExtensions, isSounding_eq_false hmap]
    exact hchain

/-- A section is read with its extensions as it was written. -/
lemma yields_readSection {s : ExtendedSection} {parsed : MessageHeader.Parsed} {mu : Numerology}
    {segments : List Segment} (hmap : c.usesMap = false)
    (h : Message.encodeSection mu c.tagging parsed.type s = .ok segments)
    (hsupported : parsed.type.isSupported = true)
    (hprbs : s.info.allPrbs = true ∨ 1 ≤ s.info.numPrb.toNat)
    (hdelimited : ∀ e ∈ s.extensions, e.Delimited c.weights)
    (hlength : s.extensions.length ≤ maxExtensions) (key : SectionKey) (slot index : ℕ)
    (rest : Bytes) :
    Yields (readSection c parsed key slot index (segments.flatMap Segment.bytes ++ rest))
      (s.received parsed.type parsed.header c.carrierPrbs, rest) := by
  simp only [Message.encodeSection, bind_eq_ok, pure_eq_ok] at h
  obtain ⟨wireId, htag, bytes, hbytes, others, hothers, rfl⟩ := h
  have hwire : (Segment.owned bytes :: others).flatMap Segment.bytes ++ rest =
      bytes ++ (others.flatMap Segment.bytes ++ rest) := by
    rw [List.flatMap_cons, List.append_assoc]
    rfl
  obtain ⟨hparse, hdrop⟩ :=
    Section.parse_encode hbytes hsupported (others.flatMap Segment.bytes ++ rest)
  have hid := (Section.encode_eq_ok.mp hbytes).1.id
  have hinfo : c.applyMap index (c.interpret parsed.header parsed.type
      (s.info.onWire parsed.type wireId (!s.extensions.isEmpty))) =
        .ok (s.info.received parsed.type parsed.header c.carrierPrbs (!s.extensions.isEmpty)) := by
    rw [FlowContext.applyMap, hmap, FlowContext.interpret_onWire htag hid hprbs]
    rfl
  have hextensions := yields_readExtensions hmap hothers hdelimited hlength slot rest
  have hbody : Yields (readBody c parsed slot index (bytes ++ (others.flatMap Segment.bytes ++ rest)))
      (s.received parsed.type parsed.header c.carrierPrbs, rest) := by
    rw [readBody, isSounding_eq_false hmap, ← hdrop, List.drop_left]
    refine (yields_lift hparse).bind ((yields_lift hinfo).bind ?_)
    exact hextensions.bind (yields_pure _)
  rw [hwire, readSection]
  refine hbody.bind ((yields_record key index _).bind ?_)
  refine Yields.bind (yields_count ?_) (yields_pure _)
  exact fun _ => rfl

/-- Sections are read one after another as they were written. -/
lemma yields_readSections (parsed : MessageHeader.Parsed) {sections : List ExtendedSection}
    {mu : Numerology} {parts : List (List Segment)} (hmap : c.usesMap = false)
    (h : sections.mapM (Message.encodeSection mu c.tagging parsed.type) = .ok parts)
    (hsupported : parsed.type.isSupported = true)
    (hprbs : ∀ s ∈ sections, s.info.allPrbs = true ∨ 1 ≤ s.info.numPrb.toNat)
    (hdelimited : ∀ s ∈ sections, ∀ e ∈ s.extensions, e.Delimited c.weights)
    (hlength : ∀ s ∈ sections, s.extensions.length ≤ maxExtensions) (key : SectionKey)
    (slot index : ℕ) (rest : Bytes) :
    Yields (readSections c parsed key slot sections.length index
        (parts.flatten.flatMap Segment.bytes ++ rest))
      (sections.map (·.received parsed.type parsed.header c.carrierPrbs)) := by
  induction sections generalizing parts index with
  | nil => exact yields_pure _
  | cons s sections ih =>
    rw [List.mapM_cons] at h
    simp only [bind_eq_ok, pure_eq_ok] at h
    obtain ⟨part, hpart, others, hothers, rfl⟩ := h
    obtain ⟨hprb, hprbs⟩ := List.forall_mem_cons.mp hprbs
    obtain ⟨hends, hdelimited⟩ := List.forall_mem_cons.mp hdelimited
    obtain ⟨hlen, hlength⟩ := List.forall_mem_cons.mp hlength
    have hwire : (part :: others).flatten.flatMap Segment.bytes ++ rest =
        part.flatMap Segment.bytes ++ (others.flatten.flatMap Segment.bytes ++ rest) := by
      rw [List.flatten_cons, List.flatMap_append, List.append_assoc]
    rw [hwire, List.length_cons, readSections]
    refine (yields_readSection hmap hpart hsupported hprb hends hlen key slot index _).bind ?_
    exact (ih hothers hprbs hdelimited hlength (index + 1)).bind (yields_pure _)

end Receiver

/-! ## Messages -/

namespace Message

variable {m : Message}

lemma checkExtensions_eq_ok {sections : List ExtendedSection}
    (h : checkExtensions sections = .ok ()) :
    ∀ s ∈ sections, s.extensions.length ≤ maxExtensions := by
  induction sections with
  | nil => simp
  | cons s sections ih =>
    simp only [checkExtensions, guard_eq_ok] at h
    obtain ⟨hlength, -, hrest⟩ := h
    exact List.forall_mem_cons.mpr ⟨Nat.le_of_not_lt hlength, ih hrest⟩

/-- What is checked before a message is written. -/
lemma validate_eq_ok (h : m.validate = .ok ()) :
    m.type.isSupported = true ∧ 0 < m.sections.length ∧ m.sections.length ≤ maxSections ∧
      ∀ s ∈ m.sections, s.extensions.length ≤ maxExtensions := by
  simp only [validate, guard_eq_ok] at h
  obtain ⟨htype, hcount, hextensions⟩ := h
  rw [not_or, List.isEmpty_iff, ← ne_eq, ← List.length_pos_iff, not_lt] at hcount
  exact ⟨by simpa using htype, hcount.1, hcount.2, checkExtensions_eq_ok hextensions⟩

/-- The parts of a message, as they follow one another on the wire. -/
lemma segments_eq_ok {mu : Numerology} {tagging : IdTagging} {segments : List Segment}
    (h : m.segments mu tagging = .ok segments) :
    ∃ header parts, m.header.encode m.direction m.type m.sections.length = .ok header ∧
      m.sections.mapM (encodeSection mu tagging m.type) = .ok parts ∧
      segments.flatMap Segment.bytes = header ++ parts.flatten.flatMap Segment.bytes := by
  simp only [Message.segments, bind_eq_ok, pure_eq_ok] at h
  obtain ⟨header, hheader, parts, hparts, rfl⟩ := h
  refine ⟨header, parts, hheader, hparts, ?_⟩
  rw [Segment.flatMap_coalesce, List.flatMap_cons]
  rfl

/-- A message is checked before a slot is taken for it, and the slot is given back when a part of it
cannot be written. -/
lemma run_encode (m : Message) (mu : Numerology) (tagging : IdTagging) (memory : Memory) :
    (m.encode mu tagging).run memory =
      match m.validate with
      | .error e => (.error e, memory)
      | .ok () =>
        match memory.takeSlot with
        | .error e => (.error (.link e), memory)
        | .ok left =>
          match m.segments mu tagging with
          | .error e => (.error e, if left.pool.isSome then left.freeSlot else left)
          | .ok segments =>
            (.ok { segments, pooled := left.pool.isSome }, left.attachAll segments) := by
  rw [encode, run_bind, run_lift]
  rcases m.validate with e | ⟨⟩
  · rfl
  dsimp only
  rw [run_bind, run_get]
  dsimp only
  rw [run_bind, run_lift]
  rcases memory.takeSlot with e | left
  · rfl
  dsimp only [liftLink, Except.mapError]
  rcases m.segments mu tagging with e | segments
  · rfl
  · rfl

/-- A packet comes from a message that is in order, takes a slot, and books its segments. -/
lemma run_encode_eq_ok_iff {mu : Numerology} {tagging : IdTagging} {memory after : Memory}
    {packet : Packet} : (m.encode mu tagging).run memory = (.ok packet, after) ↔
      m.validate = .ok () ∧ m.segments mu tagging = .ok packet.segments ∧
        ∃ left, memory.takeSlot = .ok left ∧ packet.pooled = left.pool.isSome ∧
          after = left.attachAll packet.segments := by
  rw [run_encode]
  constructor
  · intro h
    rcases hvalid : m.validate with e | ⟨⟩
    · rw [hvalid] at h
      cases h
    rw [hvalid] at h
    rcases htake : memory.takeSlot with e | left
    · simp only [htake] at h
      cases h
    rcases hsegments : m.segments mu tagging with e | segments
    · simp only [htake, hsegments] at h
      cases h
    · simp only [htake, hsegments] at h
      cases h
      exact ⟨rfl, rfl, left, rfl, rfl, rfl⟩
  · obtain ⟨segments, pooled⟩ := packet
    rintro ⟨hvalid, hsegments, left, htake, rfl, rfl⟩
    simp only [hvalid, htake, hsegments]

lemma run_encode_eq_ok {mu : Numerology} {tagging : IdTagging} {memory after : Memory}
    {packet : Packet} (h : (m.encode mu tagging).run memory = (.ok packet, after)) :
    m.validate = .ok () ∧ m.segments mu tagging = .ok packet.segments := by
  obtain ⟨hvalid, hsegments, -⟩ := run_encode_eq_ok_iff.mp h
  exact ⟨hvalid, hsegments⟩

/-- A message that is in order becomes a packet when there is a slot for it. -/
lemma run_encode_of_written {mu : Numerology} {tagging : IdTagging} {segments : List Segment}
    (hvalid : m.validate = .ok ()) (h : m.segments mu tagging = .ok segments) (memory : Memory) :
    (m.encode mu tagging).run memory =
      match memory.takeSlot with
      | .error e => (.error (.link e), memory)
      | .ok left => (.ok { segments, pooled := left.pool.isSome }, left.attachAll segments) := by
  rw [run_encode, hvalid, h]

/-- A packet takes a slot. -/
lemma takes_of_run_encode {mu : Numerology} {tagging : IdTagging} {memory after : Memory}
    {packet : Packet} (h : (m.encode mu tagging).run memory = (.ok packet, after)) :
    memory.Takes after := by
  obtain ⟨-, -, left, htake, -, rfl⟩ := run_encode_eq_ok_iff.mp h
  exact ⟨left, htake, Memory.pool_attachAll left _⟩

/-- A message that was written holds what its packet does. -/
lemma holds_of_run_encode {mu : Numerology} {tagging : IdTagging} {memory after : Memory}
    {packet : Packet} (h : (m.encode mu tagging).run memory = (.ok packet, after)) :
    memory.Holds after [packet] := by
  obtain ⟨segments, pooled⟩ := packet
  obtain ⟨-, -, left, htake, rfl, rfl⟩ := run_encode_eq_ok_iff.mp h
  exact (Memory.Holds.takeSlot htake).attachAll segments

/-- A message that cannot be written holds nothing: where a slot was taken for it, an empty packet is
dropped. -/
lemma holds_of_run_encode_error {mu : Numerology} {tagging : IdTagging} {memory after : Memory}
    {e : Error} (h : (m.encode mu tagging).run memory = (.error e, after)) :
    memory.Holds after [] := by
  rw [run_encode] at h
  rcases hvalid : m.validate with err | ⟨⟩
  · rw [hvalid] at h
    cases h
    exact .refl memory
  rw [hvalid] at h
  rcases htake : memory.takeSlot with err | left
  · simp only [htake] at h
    cases h
    exact .refl memory
  rcases hsegments : m.segments mu tagging with err | segments
  · simp only [htake, hsegments] at h
    cases h
    exact (Memory.Holds.takeSlot htake).drop
  · simp only [htake, hsegments] at h
    cases h

end Message

namespace Receiver

variable {c : FlowContext} {weights : UInt16} {m : Message}

/-- The header of a message that is in order is accepted, whatever follows it. -/
lemma acceptHeader_encode {header : Bytes} (hvalid : m.validate = .ok ())
    (h : m.header.encode m.direction m.type m.sections.length = .ok header)
    (hmixed : m.type = .mixed → m.header.fftSize.toNat ≤ 15 ∧ m.header.spacing.toNat ≤ 15)
    (rest : Bytes) :
    acceptHeader (header ++ rest) =
        .ok ⟨m.direction, m.header.onWire m.type, m.sections.length, m.type⟩ ∧
      header.length = m.type.headerLength := by
  obtain ⟨-, hpos, hle, -⟩ := Message.validate_eq_ok hvalid
  obtain ⟨hparse, hlength⟩ :=
    MessageHeader.parse_encode h hmixed (by unfold maxSections at hle; omega) rest
  exact ⟨acceptHeader_eq_ok.mpr ⟨hparse, hpos, hle⟩, hlength⟩

/-- The segments of a message are read as the message, whatever follows them. -/
lemma yields_readMessage {mu : Numerology} {segments : List Segment} (hmap : c.usesMap = false)
    (hvalid : m.validate = .ok ()) (h : m.segments mu c.tagging = .ok segments)
    (hlegible : m.Legible c.weights) (rest : Bytes) :
    Yields (readMessage c (segments.flatMap Segment.bytes ++ rest)) (m.onWire c.carrierPrbs) := by
  obtain ⟨hsupported, -, -, hlength⟩ := Message.validate_eq_ok hvalid
  obtain ⟨header, parts, hheader, hparts, hwire⟩ := Message.segments_eq_ok h
  obtain ⟨haccept, hdrop⟩ := acceptHeader_encode hvalid hheader hlegible.mixed_le
    (parts.flatten.flatMap Segment.bytes ++ rest)
  have hsections := fun key slot => yields_readSections
    ⟨m.direction, m.header.onWire m.type, m.sections.length, m.type⟩ hmap hparts hsupported
    hlegible.prbs hlegible.delimited hlength key slot 0 rest
  rw [hwire, List.append_assoc, readMessage]
  refine (yields_lift haccept).bind ?_
  dsimp only
  rw [← hdrop, List.drop_left]
  exact (hsections _ _).bind (yields_pure _)

/-- The message in the segments of a message, to a receiver that knows how many weights a vector
has. -/
lemma message_segments {mu : Numerology} {segments : List Segment} (hmap : c.usesMap = false)
    (hweights : c.weights = some weights) (hvalid : m.validate = .ok ())
    (h : m.segments mu c.tagging = .ok segments) (hreadable : m.Readable weights)
    (rest : Bytes) :
    message c (segments.flatMap Segment.bytes ++ rest) = .ok (m.received c.carrierPrbs) := by
  have hlegible := hreadable.legible
  rw [← hweights] at hlegible
  have hread := yields_readMessage hmap hvalid h hlegible rest
  rw [← parse_eq_message c _ {}, (hread.parse_eq {}).1, hreadable.onWire_eq]

/-- A packet that was made from a message gives the message back: to a receiver that knows how ids
are tagged and how many weights a vector has, and takes no resource blocks from a map. -/
theorem parse_encoded {mu : Numerology} {tagging : IdTagging} {memory after : Memory}
    {packet : Packet} (h : (m.encode mu tagging).run memory = (.ok packet, after))
    (hreadable : m.Readable weights) (htagging : c.tagging = tagging)
    (hweights : c.weights = some weights) (hmap : c.usesMap = false) (counts : ReceiveCounts) :
    (parse c packet.wire counts).1 = .ok (m.received c.carrierPrbs) := by
  subst htagging
  obtain ⟨hvalid, hsegments⟩ := Message.run_encode_eq_ok h
  have hmessage := message_segments hmap hweights hvalid hsegments hreadable []
  rw [List.append_nil] at hmessage
  rw [parse_eq_message]
  exact hmessage

/-- A message whose section has a vector of one weight and two beams in a shared buffer. -/
def weightAndBeams : Message where
  direction := .dl
  type := .regular
  header := { frame := 7, slot := 1, iqWidth := 9, compression := .blockFloatingPoint }
  sections := [⟨{ id := 5, numPrb := 300, numSymbols := 14, reMask := 0xfff },
    [.beamWeights ⟨16, .none, [⟨1, -1⟩]⟩,
      .weightBundles
        { beamsOnly := true, bundlePrbs := 2, method := .none, width := 16, count := 2
          payload := ⟨1, [0, 3, 0, 4]⟩ }]⟩]

/-- The message with a weight and beams comes back, its section as one for the whole carrier. -/
theorem parse_encoded_weightAndBeams :
    ∃ packet after,
      (weightAndBeams.encode .khz30 (.highBits 2)).run {} = (.ok packet, after) ∧
        weightAndBeams.Readable 1 ∧
        (parse { mu := .khz30, carrier := 0, antenna := 0, weights := some 1
                 carrierPrbs := some 273, tagging := .highBits 2 } packet.wire {}).1 =
          .ok (weightAndBeams.received (some 273)) := by
  have hreadable : weightAndBeams.Readable 1 := by
    refine ⟨by decide, by decide, nofun, by decide, ?_⟩
    simp [weightAndBeams, Extension.Sized, WeightBundles.Exact]
  obtain ⟨packet, after, hencode⟩ : ∃ packet after,
      (weightAndBeams.encode .khz30 (.highBits 2)).run {} = (.ok packet, after) := ⟨_, _, rfl⟩
  exact ⟨packet, after, hencode, hreadable, parse_encoded hencode hreadable rfl rfl rfl {}⟩

end Receiver

end OpenFronthaul
