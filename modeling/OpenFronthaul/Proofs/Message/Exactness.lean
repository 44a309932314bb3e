import OpenFronthaul.Proofs.Message.RoundTrip

/-!
# What of a message goes out unchecked

Nearly every value that is too large for its field is refused when a message is written.  Two are
not: of the codes for the transform size and for the spacing four bits go out, whatever they are,
and a section that has no resource blocks goes out under the sentinel for the whole carrier.  A
packet is the same as that of the message with these two taken into account (`Message.carried`),
which is read back as it was written; so the fields that come back other than they were given are
known (`Receiver.parse_tells`).
-/

namespace OpenFronthaul

/-! ## Messages with the same packet -/

/-- A header with the codes that four bits are left of. -/
def MessageHeader.carried (h : MessageHeader) : MessageHeader :=
  { h with fftSize := h.fftSize % 16, spacing := h.spacing % 16 }

/-- A section that is one for the whole carrier when it has no resource blocks. -/
def Section.carried (s : Section) : Section :=
  { s with allPrbs := s.allPrbs || s.numPrb = 0 }

/-- A message as its packet carries it. -/
def Message.carried (m : Message) : Message :=
  { m with
    header := m.header.carried
    sections := m.sections.map fun s => { s with info := s.info.carried } }

lemma MessageHeader.carried_le (h : MessageHeader) :
    h.carried.fftSize.toNat ≤ 15 ∧ h.carried.spacing.toNat ≤ 15 := by
  have hcode (code : UInt8) : (code % 16).toNat ≤ 15 := by
    rw [UInt8.toNat_mod]
    exact Nat.le_of_lt_succ (Nat.mod_lt _ (by decide))
  exact ⟨hcode h.fftSize, hcode h.spacing⟩

lemma MessageHeader.encode_carried (h : MessageHeader) (direction : Direction)
    (type : SectionType) (sections : ℕ) :
    h.carried.encode direction type sections = h.encode direction type sections := by
  -- both codes have fields of four bits
  have hcode (code : UInt8) : (code % 16).toNat % 2 ^ 4 = code.toNat % 2 ^ 4 := by
    rw [UInt8.toNat_mod]
    exact Nat.mod_mod _ 16
  have hfft : (h.fftSize % 16).toNat % 2 ^ FrameByte.fftSize.width =
      h.fftSize.toNat % 2 ^ FrameByte.fftSize.width := hcode h.fftSize
  have hspacing : (h.spacing % 16).toNat % 2 ^ FrameByte.spacing.width =
      h.spacing.toNat % 2 ^ FrameByte.spacing.width := hcode h.spacing
  have hpart : h.carried.encodeTypePart type = h.encodeTypePart type := by
    cases type with
    | mixed =>
      simp only [encodeTypePart, carried, BitField.put, hfft, hspacing]
    | unused | regular | scheduling | channelState | assistedAccess => rfl
  rw [encode, encode, hpart]
  rfl

namespace Section

variable {s : Section}

lemma usesSentinel_carried : s.carried.usesSentinel = (s.usesSentinel || s.numPrb = 0) := by
  rw [usesSentinel, usesSentinel, carried]
  exact Bool.or_right_comm ..

lemma encode_carried (s : Section) (type : SectionType) (wireId : ℕ) (extended : Bool) :
    s.carried.encode type wireId extended = s.encode type wireId extended := by
  have hnumPrb : s.carried.wireNumPrb = s.wireNumPrb := by
    rw [wireNumPrb, wireNumPrb, usesSentinel_carried]
    by_cases hnone : s.numPrb = 0
    · simp [hnone]
    · simp only [hnone, decide_false, Bool.or_false]
      rfl
  have hword : s.carried.word wireId extended = s.word wireId extended := by
    simp only [word, hnumPrb]
    rfl
  rw [encode, encode, hword]
  rfl

end Section

namespace Message

variable {m : Message}

lemma encodeSection_carried (mu : Numerology) (tagging : IdTagging) (type : SectionType)
    (s : ExtendedSection) : encodeSection mu tagging type { s with info := s.info.carried } =
      encodeSection mu tagging type s := by
  simp only [encodeSection, Section.encode_carried]
  rfl

lemma checkExtensions_carried (sections : List ExtendedSection) :
    checkExtensions (sections.map fun s => { s with info := s.info.carried }) =
      checkExtensions sections := by
  induction sections with
  | nil => rfl
  | cons s sections ih =>
    rw [List.map_cons, checkExtensions, checkExtensions, ih, List.isEmpty_map]
    rfl

lemma validate_carried (m : Message) : m.carried.validate = m.validate := by
  simp only [validate, carried, checkExtensions_carried, List.isEmpty_map, List.length_map]

/-- What is not checked makes no difference to a packet. -/
lemma segments_carried (m : Message) (mu : Numerology) (tagging : IdTagging) :
    m.carried.segments mu tagging = m.segments mu tagging := by
  have hsections : m.carried.sections.mapM (encodeSection mu tagging m.type) =
      m.sections.mapM (encodeSection mu tagging m.type) := by
    rw [carried, List.mapM_map]
    exact congrArg (m.sections.mapM ·) (funext (encodeSection_carried mu tagging m.type))
  rw [segments, segments, ← hsections]
  simp only [carried, MessageHeader.encode_carried, List.length_map]

end Message

/-! ## What is refused -/

/-- The values of a section that are refused when they are out of range. -/
structure Section.InRange (s : Section) (type : SectionType) (tagging : IdTagging) : Prop where
  id_le : s.id.toNat ≤ tagging.maxId
  startPrb_lt : s.startPrb.toNat < 2 ^ SectionWord.startPrb.width
  reMask_lt : s.reMask.toNat < 2 ^ SectionWord.reMask.width
  numSymbols_pos : 0 < s.numSymbols.toNat
  numSymbols_le : s.numSymbols.toNat ≤ symbolsPerSlot
  beamId_lt : s.beamId.toNat < 2 ^ SectionWord.beamId.width
  frequencyOffset_mem : type = .mixed →
    -2 ^ 23 ≤ s.frequencyOffset ∧ s.frequencyOffset < 2 ^ 23

/-- The values of a message that are refused when they are out of range. -/
structure Message.InRange (m : Message) (tagging : IdTagging) : Prop where
  header_fits : m.header.Fits
  sections : ∀ s ∈ m.sections, s.info.InRange m.type tagging

lemma Message.inRange_of_encodeSection {mu : Numerology} {tagging : IdTagging} {type : SectionType}
    {s : ExtendedSection} {segments : List Segment}
    (h : encodeSection mu tagging type s = .ok segments) : s.info.InRange type tagging := by
  simp only [encodeSection, bind_eq_ok] at h
  obtain ⟨wireId, htag, body, hbody, -⟩ := h
  simp only [IdTagging.tag, bind_eq_ok, check_eq_ok, not_lt] at htag
  obtain ⟨-, -, hid, -⟩ := htag
  obtain ⟨hfits, ⟨hsome, hsymbols⟩, offset, hoffset, -⟩ := Section.encode_eq_ok.mp hbody
  refine ⟨hid, hfits.startPrb, hfits.reMask, hsome, hsymbols, hfits.beamId, ?_⟩
  intro htype
  rw [if_pos htype, Section.encodeOffset, guard_eq_ok] at hoffset
  omega

/-- A message that was written is in range. -/
lemma Message.inRange_of_segments {m : Message} {mu : Numerology} {tagging : IdTagging}
    {segments : List Segment} (h : m.segments mu tagging = .ok segments) :
    m.InRange tagging := by
  obtain ⟨header, parts, hheader, hparts, -⟩ := segments_eq_ok h
  refine ⟨?_, fun s hs => ?_⟩
  · simp only [MessageHeader.encode, bind_eq_ok] at hheader
    obtain ⟨_, hfilter, _, hsubframe, _, hslot, _, hsymbol, -⟩ := hheader
    rw [BitField.check_eq_ok] at hfilter hsubframe hslot hsymbol
    exact ⟨hfilter, hsubframe, hslot, hsymbol⟩
  · obtain ⟨part, hpart⟩ := exists_mapM_iff.mp ⟨parts, hparts⟩ s hs
    exact inRange_of_encodeSection hpart

/-! ## What comes back -/

/-- A header as it comes back from its packet. -/
structure MessageHeader.Told (h received : MessageHeader) (type : SectionType) : Prop where
  filterIndex_eq : received.filterIndex = h.filterIndex
  frame_eq : received.frame = h.frame
  subframe_eq : received.subframe = h.subframe
  slot_eq : received.slot = h.slot
  startSymbol_eq : received.startSymbol = h.startSymbol
  compression_eq : received.compression = h.compression
  /-- Sample widths that four bits do not hold come back as sixteen. -/
  iqWidth_eq : received.iqWidth =
    if 1 ≤ h.iqWidth.toNat ∧ h.iqWidth.toNat ≤ 16 then h.iqWidth else 16
  timeOffset_eq : type = .mixed → received.timeOffset = h.timeOffset
  cyclicPrefix_eq : type = .mixed → received.cyclicPrefix = h.cyclicPrefix
  /-- Of the code for the transform size four bits come back. -/
  fftSize_eq : type = .mixed → received.fftSize = h.fftSize % 16
  /-- So it is with the code for the spacing. -/
  spacing_eq : type = .mixed → received.spacing = h.spacing % 16

/-- A section as it comes back from its packet. -/
structure Section.Told (s received : Section) (type : SectionType) : Prop where
  id_eq : received.id = s.id
  startPrb_eq : received.startPrb = s.startPrb
  numSymbols_eq : received.numSymbols = s.numSymbols
  reMask_eq : received.reMask = s.reMask
  beamId_eq : received.beamId = s.beamId
  frequencyOffset_eq : type = .mixed → received.frequencyOffset = s.frequencyOffset
  /-- A section is for the whole carrier when it asks for it, and when it has no resource blocks. -/
  allPrbs_eq : received.allPrbs = (s.usesSentinel || s.numPrb = 0)

/-- A message as it comes back from its packet. -/
structure Message.Told (m received : Message) : Prop where
  direction_eq : received.direction = m.direction
  header : m.header.Told received.header m.type
  sections : List.Forall₂ (fun s r => s.info.Told r.info m.type) m.sections received.sections

lemma SampleWidth.ofWire_toWire_eq_ite (width : UInt8) : ofWire (toWire width) =
    if 1 ≤ width.toNat ∧ width.toNat ≤ 16 then width else 16 := by
  split_ifs with h
  · exact ofWire_toWire h.1 h.2
  · have hzero : toWire width = 0 := by
      unfold toWire
      split_ifs
      · rfl
      · omega
    rw [hzero]
    rfl

lemma MessageHeader.told_onWire (h : MessageHeader) (type : SectionType) :
    h.Told (h.carried.onWire type) type := by
  have hwidth := SampleWidth.ofWire_toWire_eq_ite h.iqWidth
  by_cases htype : type = .mixed
  · rw [onWire, received, if_pos htype]
    exact ⟨rfl, rfl, rfl, rfl, rfl, rfl, hwidth, fun _ => rfl, fun _ => rfl, fun _ => rfl,
      fun _ => rfl⟩
  · rw [onWire, received, if_neg htype]
    exact ⟨rfl, rfl, rfl, rfl, rfl, rfl, hwidth, fun hmixed => absurd hmixed htype,
      fun hmixed => absurd hmixed htype, fun hmixed => absurd hmixed htype,
      fun hmixed => absurd hmixed htype⟩

/-- A message is carried as what comes back of it. -/
lemma Message.told_onWire (m : Message) (carrierPrbs : Option UInt16) :
    m.Told (m.carried.onWire carrierPrbs) := by
  refine ⟨rfl, m.header.told_onWire m.type, ?_⟩
  rw [onWire, carried, List.map_map, List.forall₂_map_right_iff, List.forall₂_same]
  intro s _
  exact ⟨rfl, rfl, rfl, rfl, rfl, fun htype => if_pos htype, Section.usesSentinel_carried⟩

/-- A message without weights is legible as it is carried, whatever was asked for. -/
lemma Message.legible_carried {m : Message} (hplain : ∀ s ∈ m.sections, ∀ e ∈ s.extensions,
    e.kind ≠ .beamWeights ∧ e.kind ≠ .weightBundles) (weights : Option UInt16) :
    m.carried.Legible weights := by
  refine ⟨fun _ => m.header.carried_le, ?_, ?_⟩
  · rw [carried, List.forall_mem_map]
    intro s _
    by_cases hnone : s.info.numPrb = 0
    · left
      simp [Section.carried, hnone]
    · right
      exact Nat.pos_of_ne_zero fun hzero => hnone (UInt16.toNat_inj.mp hzero)
  · rw [carried, List.forall_mem_map]
    intro s hs e he
    obtain ⟨hvector, hbundles⟩ := hplain s hs e he
    cases e with
    | beamWeights _ => exact absurd rfl hvector
    | weightBundles _ => exact absurd rfl hbundles
    | _ => trivial

namespace Receiver

variable {c : FlowContext} {m : Message}

/-- A packet of a message without weights says of every value what fits, and the message was in
range but for the codes of the transform size and of the spacing. -/
theorem parse_tells {mu : Numerology} {tagging : IdTagging} {memory after : Memory}
    {packet : Packet} (h : (m.encode mu tagging).run memory = (.ok packet, after))
    (hplain : ∀ s ∈ m.sections, ∀ e ∈ s.extensions,
      e.kind ≠ .beamWeights ∧ e.kind ≠ .weightBundles)
    (htagging : c.tagging = tagging) (hmap : c.usesMap = false) (counts : ReceiveCounts) :
    m.InRange tagging ∧
      ∃ received, (parse c packet.wire counts).1 = .ok received ∧ m.Told received := by
  subst htagging
  obtain ⟨hvalid, hsegments⟩ := Message.run_encode_eq_ok h
  refine ⟨Message.inRange_of_segments hsegments, m.carried.onWire c.carrierPrbs, ?_,
    m.told_onWire c.carrierPrbs⟩
  rw [← Message.segments_carried] at hsegments
  rw [← Message.validate_carried] at hvalid
  have hread :=
    yields_readMessage hmap hvalid hsegments (Message.legible_carried hplain c.weights) []
  rw [List.append_nil] at hread
  exact (hread.parse_eq counts).1

namespace MixedMessage

/-- A mixed message whose second section has no resource blocks. -/
def message : Message where
  direction := .ul
  type := .mixed
  header :=
    { frame := 7, subframe := 4, slot := 1, startSymbol := 3, filterIndex := 2, iqWidth := 9
      compression := .blockFloatingPoint, timeOffset := 1000, fftSize := 16, spacing := 1
      cyclicPrefix := 144 }
  sections := [⟨{ id := 5, startPrb := 20, numPrb := 12, numSymbols := 6, reMask := 0xfff
                  beamId := 9, frequencyOffset := -3276 }, [.antennaMask 3]⟩,
    ⟨{ id := 6, startPrb := 40, numPrb := 0, numSymbols := 1 }, []⟩]

/-- What a receiver of the message knows. -/
def context : FlowContext where
  mu := .khz30
  carrier := 0
  antenna := 0
  tagging := .highBits 2

/-- The message is written, and comes back as far as it fits. -/
theorem parse_tells_message :
    ∃ packet after received,
      (message.encode .khz30 (.highBits 2)).run {} = (.ok packet, after) ∧
        message.InRange (.highBits 2) ∧ (parse context packet.wire {}).1 = .ok received ∧
        message.Told received := by
  obtain ⟨packet, after, hencode⟩ : ∃ packet after,
      (message.encode .khz30 (.highBits 2)).run {} = (.ok packet, after) := ⟨_, _, rfl⟩
  have htagging : context.tagging = .highBits 2 := rfl
  obtain ⟨hrange, received, hparse, htold⟩ := parse_tells hencode (by decide) htagging rfl {}
  exact ⟨packet, after, received, hencode, hrange, hparse, htold⟩

/-- The code 16 for the transform size comes back as 0, and the section without resource blocks as
one for the whole carrier. -/
theorem message_altered :
    ∃ packet after, (message.encode .khz30 (.highBits 2)).run {} = (.ok packet, after) ∧
      message.sections.map (·.info.usesSentinel) = [false, false] ∧
      (parse context packet.wire {}).1.toOption.map
        (fun received => (received.header.fftSize, received.sections.map (·.info.allPrbs))) =
          some (0, [false, true]) :=
  ⟨_, _, rfl, rfl, by decide +kernel⟩

end MixedMessage

end Receiver

end OpenFronthaul
