import OpenFronthaul.Proofs.Extension.Rewriting
import OpenFronthaul.Proofs.Message.RoundTrip

/-!
# What is read of a message can be written

A message that came out of a packet can be written again, and a receiver reads the new packet as the
same message (`Receiver.parse_rewritten`).  The packet itself may differ: spare bits and what stands
behind the contents of an extension are lost on the way.
-/

namespace OpenFronthaul

open Extension

/-! ## Headers -/

lemma BitField.get_lt (field : BitField) (word : ℕ) : field.get word < 2 ^ field.width :=
  Nat.mod_lt _ (Nat.two_pow_pos _)

/-- What is taken from a field fits the field again. -/
lemma BitField.toNat_ofNat_get_lt (field : BitField) (word : ℕ) :
    (UInt8.ofNat (field.get word)).toNat < 2 ^ field.width ∧
      (UInt16.ofNat (field.get word)).toNat < 2 ^ field.width := by
  rw [UInt8.toNat_ofNat', UInt16.toNat_ofNat']
  exact ⟨(Nat.mod_le _ _).trans_lt (field.get_lt word),
    (Nat.mod_le _ _).trans_lt (field.get_lt word)⟩

lemma CompressionByte.parse_eq_ok {byte : ℕ} {r : IqCompression × UInt8} (h : parse byte = .ok r) :
    SampleWidth.ofWire (SampleWidth.toWire r.2) = r.2 := by
  rw [parse] at h
  split at h
  · obtain rfl := pure_eq_ok.mp h
    obtain ⟨hpos, hle⟩ := SampleWidth.ofWire_range (width.get byte)
    exact SampleWidth.ofWire_toWire hpos hle
  · cases h

namespace MessageHeader

variable {data : Bytes} {parsed : Parsed}

lemma fits_commonAt (data : Bytes) : (commonAt data).Fits where
  filterIndex := (BitField.toNat_ofNat_get_lt _ _).1
  subframe := (BitField.toNat_ofNat_get_lt _ _).1
  slot := (BitField.toNat_ofNat_get_lt _ _).1
  startSymbol := (BitField.toNat_ofNat_get_lt _ _).1

/-- The part of a header for its type leaves the first word alone. -/
lemma fits_parse (h : parse data = .ok parsed) : parsed.header.Fits := by
  obtain ⟨-, -, -, -, hheader, -, -⟩ := parse_eq_ok.mp h
  obtain ⟨hfilter, hsubframe, hslot, hsymbol⟩ := fits_commonAt data
  rw [parseTypePart_eq_ok] at hheader
  split_ifs at hheader
  · obtain ⟨-, compression, iqWidth, -, hheader⟩ := hheader
    rw [hheader]
    exact ⟨hfilter, hsubframe, hslot, hsymbol⟩
  · obtain ⟨-, compression, iqWidth, -, hheader⟩ := hheader
    rw [hheader]
    exact ⟨hfilter, hsubframe, hslot, hsymbol⟩

/-- A header that is read can be written, with any number of sections. -/
lemma encode_parse (h : parse data = .ok parsed) (sections : ℕ) :
    ∃ bytes, parsed.header.encode parsed.direction parsed.type sections = .ok bytes := by
  obtain ⟨-, -, -, hsupported, -, -, -⟩ := parse_eq_ok.mp h
  obtain ⟨hfilter, hsubframe, hslot, hsymbol⟩ := fits_parse h
  obtain ⟨part, hpart⟩ : ∃ part, parsed.header.encodeTypePart parsed.type = .ok part := by
    cases htype : parsed.type with
    | regular => exact ⟨_, rfl⟩
    | mixed => exact ⟨_, rfl⟩
    | unused | scheduling | channelState | assistedAccess =>
      rw [htype] at hsupported
      cases hsupported
  rw [encode, BitField.check_eq_ok.mpr hfilter, ok_bind, BitField.check_eq_ok.mpr hsubframe, ok_bind,
    BitField.check_eq_ok.mpr hslot, ok_bind, BitField.check_eq_ok.mpr hsymbol, ok_bind, hpart]
  exact ⟨_, rfl⟩

/-- A header that is read has nothing but what its type carries. -/
lemma onWire_parse (h : parse data = .ok parsed) :
    parsed.header.onWire parsed.type = parsed.header ∧
      (parsed.type = .mixed →
        parsed.header.fftSize.toNat ≤ 15 ∧ parsed.header.spacing.toNat ≤ 15) := by
  obtain ⟨-, -, -, -, hheader, -, -⟩ := parse_eq_ok.mp h
  rw [parseTypePart_eq_ok] at hheader
  split_ifs at hheader with htype
  · obtain ⟨-, compression, iqWidth, hcompression, hheader⟩ := hheader
    have hwidth := CompressionByte.parse_eq_ok hcompression
    rw [hheader, onWire, received, if_pos htype]
    refine ⟨?_, fun _ => ⟨?_, ?_⟩⟩
    · dsimp only at hwidth ⊢
      rw [hwidth]
    · exact Nat.le_of_lt_succ ((BitField.toNat_ofNat_get_lt _ _).1)
    · exact Nat.le_of_lt_succ ((BitField.toNat_ofNat_get_lt _ _).1)
  · obtain ⟨-, compression, iqWidth, hcompression, hheader⟩ := hheader
    have hwidth := CompressionByte.parse_eq_ok hcompression
    refine ⟨?_, fun hmixed => absurd hmixed htype⟩
    rw [hheader, onWire, received, if_neg htype]
    dsimp only at hwidth ⊢
    rw [hwidth]
    rfl

end MessageHeader

/-! ## Sections -/

/-- An id that was on the wire can be tagged again. -/
lemma IdTagging.tag_strip {tagging : IdTagging} {mu : Numerology} {wireId : ℕ}
    (htag : ∃ tagged, tagging.tag 0 mu = .ok tagged) (h : wireId < 2 ^ SectionWord.id.width) :
    ∃ tagged < 2 ^ SectionWord.id.width, tagging.tag (tagging.strip wireId) mu = .ok tagged := by
  obtain ⟨tagged, htag⟩ := htag
  simp only [tag, bind_eq_ok] at htag
  obtain ⟨_, hcheck, -⟩ := htag
  have hwidth : SectionWord.id.width = 12 := rfl
  rw [hwidth] at h ⊢
  cases tagging with
  | untagged =>
    have hid : (UInt16.ofNat wireId).toNat = wireId := UInt16.toNat_ofNat_of_lt (by
      show wireId < 65536
      omega)
    have hfits : ¬maxId untagged < (UInt16.ofNat wireId).toNat := by
      rw [hid, maxId, baseBits]
      omega
    refine ⟨wireId, h, ?_⟩
    rw [tag, hcheck, ok_bind, strip, if_neg hfits]
    exact congrArg Except.ok hid
  | highBits bits =>
    rw [checkTag, guard_eq_ok, guard_eq_ok] at hcheck
    obtain ⟨hbits, hmu, -⟩ := hcheck
    have hbase : (highBits bits).baseBits = 12 - bits.toNat := by
      rw [baseBits]
      omega
    have hlow : wireId % 2 ^ (highBits bits).baseBits < 2 ^ (highBits bits).baseBits :=
      Nat.mod_lt _ (Nat.two_pow_pos _)
    have hid : (strip (highBits bits) wireId).toNat = wireId % 2 ^ (highBits bits).baseBits := by
      rw [strip, UInt16.toNat_ofNat', Nat.mod_eq_of_lt]
      exact (Nat.mod_le _ _).trans_lt (h.trans (by decide))
    have hfits : ¬maxId (highBits bits) < (strip (highBits bits) wireId).toNat := by
      rw [hid, maxId]
      omega
    refine ⟨mu.index * 2 ^ (highBits bits).baseBits + (strip (highBits bits) wireId).toNat, ?_, ?_⟩
    · rw [hid]
      calc mu.index * 2 ^ (highBits bits).baseBits + wireId % 2 ^ (highBits bits).baseBits
          < (mu.index + 1) * 2 ^ (highBits bits).baseBits := by
            rw [Nat.add_mul, Nat.one_mul]
            omega
        _ ≤ 2 ^ bits.toNat * 2 ^ (highBits bits).baseBits :=
            Nat.mul_le_mul_right _ (Nat.lt_of_not_le hmu)
        _ = 2 ^ 12 := by
            rw [hbase, ← pow_add]
            congr 1
            omega
    · rw [tag, checkTag, if_neg hbits, if_neg hmu]
      exact (if_neg hfits).trans rfl

lemma Section.encode_of_fits {s : Section} {type : SectionType} {wireId : ℕ} (hfits : s.Fits wireId)
    (hsymbols : 1 ≤ s.numSymbols.toNat ∧ s.numSymbols.toNat ≤ symbolsPerSlot)
    (hoffset : type = .mixed → -2 ^ 23 ≤ s.frequencyOffset ∧ s.frequencyOffset < 2 ^ 23)
    (extended : Bool) : ∃ bytes, s.encode type wireId extended = .ok bytes := by
  obtain ⟨offset, hwritten⟩ :
      ∃ offset, (if type = .mixed then s.encodeOffset else pure []) = .ok offset := by
    by_cases htype : type = .mixed
    · obtain ⟨hlow, hhigh⟩ := hoffset htype
      rw [if_pos htype, encodeOffset, if_neg (by omega)]
      exact ⟨_, rfl⟩
    · exact ⟨[], if_neg htype⟩
  exact ⟨_, encode_eq_ok.mpr ⟨hfits, hsymbols, offset, hwritten, rfl⟩⟩

lemma signExtend_range (value : ℕ) :
    -2 ^ 23 ≤ signExtend 24 value ∧ signExtend 24 value < 2 ^ 23 := by
  have hlow := Int.le_bmod (x := (value : ℤ)) (m := 2 ^ 24) (by decide)
  have hhigh := Int.bmod_lt (x := (value : ℤ)) (m := 2 ^ 24) (by decide)
  rw [signExtend]
  omega

namespace FlowContext

variable (c : FlowContext) (header : MessageHeader) {type : SectionType} {data : Bytes}
  {wire : WireSection}

/-- A section that is read can be written under its id. -/
lemma encode_interpret (h : WireSection.parse data type = .ok wire) {tagged : ℕ}
    (htagged : tagged < 2 ^ SectionWord.id.width)
    (hsymbols : 1 ≤ wire.numSymbols.toNat ∧ wire.numSymbols.toNat ≤ symbolsPerSlot)
    (extended : Bool) :
    ∃ bytes, (c.interpret header type wire).encode type tagged extended = .ok bytes := by
  obtain ⟨-, rfl⟩ := WireSection.parse_eq_ok.mp h
  refine Section.encode_of_fits ⟨htagged, ?_, ?_, ?_, ?_⟩ hsymbols ?_ extended
  · exact (BitField.toNat_ofNat_get_lt _ _).2
  · exact (BitField.toNat_ofNat_get_lt _ _).2
  · exact (BitField.toNat_ofNat_get_lt _ _).1
  · exact (BitField.toNat_ofNat_get_lt _ _).2
  · intro htype
    rw [interpret]
    dsimp only
    rw [if_pos htype]
    exact signExtend_range _

/-- A section that is read has nothing but what is on the wire. -/
lemma received_interpret (h : WireSection.parse data type = .ok wire) :
    (c.interpret header type wire).received type header c.carrierPrbs wire.extended =
        c.interpret header type wire ∧
      ((c.interpret header type wire).allPrbs = true ∨
        1 ≤ (c.interpret header type wire).numPrb.toNat) := by
  obtain ⟨-, rfl⟩ := WireSection.parse_eq_ok.mp h
  generalize hprb : UInt8.ofNat (SectionWord.numPrb.get (numberAt data 0 8)) = numPrb
  have hlt := numPrb.toNat_lt
  have hoffset : ∀ offset : ℤ, (if type = .mixed then (if type = .mixed then offset else 0) else 0) =
      if type = .mixed then offset else 0 := by
    intro offset
    split_ifs
    · rfl
    · rfl
  by_cases hwhole : numPrb.toNat = 0
  · simp [Section.received, interpret, Section.usesSentinel, hwhole, hoffset]
  · have hpos : 1 ≤ numPrb.toNat := by omega
    have hsmall : ¬255 < numPrb.toNat := by omega
    simp [Section.received, interpret, Section.usesSentinel, hwhole, hoffset, hsmall, hpos]

end FlowContext

/-! ## Sections with extensions -/

lemma Message.encodeChain_of_rewritable {exts : List Extension} {weights : Option UInt16}
    (h : ∀ e ∈ exts, e.Rewritable weights) : ∃ segments, encodeChain exts = .ok segments := by
  induction exts with
  | nil => exact ⟨[], rfl⟩
  | cons e exts ih =>
    obtain ⟨hhead, htail⟩ := List.forall_mem_cons.mp h
    obtain ⟨encoded, hencoded⟩ := hhead.encode (!exts.isEmpty)
    obtain ⟨others, hothers⟩ := ih htail
    rw [encodeChain, hencoded, ok_bind, hothers]
    exact ⟨_, rfl⟩

/-- A section that a receiver gets back when it is written into a message with the given header. -/
structure ExtendedSection.Rewritable (s : ExtendedSection) (c : FlowContext)
    (parsed : MessageHeader.Parsed) : Prop where
  count : s.extensions.length ≤ maxExtensions
  delimited : ∀ e ∈ s.extensions, e.Delimited c.weights
  prbs : s.info.allPrbs = true ∨ 1 ≤ s.info.numPrb.toNat
  encode : 1 ≤ s.info.numSymbols.toNat ∧ s.info.numSymbols.toNat ≤ symbolsPerSlot →
    ∃ segments, Message.encodeSection c.mu c.tagging parsed.type s = .ok segments
  received : s.received parsed.type parsed.header c.carrierPrbs = s

namespace Receiver

variable {c : FlowContext} {data rest : Bytes} {exts : List Extension}

/-- By induction on the room, as the chain is read. -/
lemma rewritable_of_chain {room : ℕ} (h : chain c room data = .ok (exts, rest)) :
    exts ≠ [] ∧ exts.length ≤ room ∧ ∀ e ∈ exts, e.Rewritable c.weights := by
  induction room generalizing data exts with
  | zero => cases h
  | succ room ih =>
    rw [chain, bind_eq_ok] at h
    obtain ⟨d, hdecode, h⟩ := h
    have hhead := rewritable_of_decode hdecode
    dsimp only at h
    split_ifs at h
    · simp only [bind_eq_ok, pure_eq_ok, Prod.exists, Prod.mk.injEq] at h
      obtain ⟨others, _, hothers, rfl, rfl⟩ := h
      obtain ⟨-, hlength, hall⟩ := ih hothers
      exact ⟨List.cons_ne_nil _ _, Nat.succ_le_succ hlength, List.forall_mem_cons.mpr ⟨hhead, hall⟩⟩
    · cases h
      exact ⟨List.cons_ne_nil _ _, Nat.succ_pos room, List.forall_mem_singleton.mpr hhead⟩

/-- The flag of a section that is read says whether it has extensions. -/
lemma rewritable_of_extensions {extended : Bool} (hmap : c.usesMap = false)
    (h : extensions c extended data = .ok (exts, rest)) :
    (!exts.isEmpty) = extended ∧ exts.length ≤ maxExtensions ∧
      ∀ e ∈ exts, e.Rewritable c.weights := by
  rw [extensions, isSounding_eq_false hmap] at h
  cases extended with
  | false =>
    cases h
    exact ⟨rfl, Nat.zero_le _, nofun⟩
  | true =>
    obtain ⟨hne, hlength, hall⟩ := rewritable_of_chain h
    refine ⟨?_, hlength, hall⟩
    simpa using hne

lemma rewritable_of_body {parsed : MessageHeader.Parsed} {index : ℕ} {s : ExtendedSection}
    (hmap : c.usesMap = false) (htag : ∃ tagged, c.tagging.tag 0 c.mu = .ok tagged)
    (h : body c parsed index data = .ok (s, rest)) : s.Rewritable c parsed := by
  simp only [body, bind_eq_ok, pure_eq_ok, FlowContext.applyMap, hmap, Prod.exists,
    Prod.mk.injEq] at h
  obtain ⟨wire, hwire, info, hinfo, exts, _, hexts, rfl, -⟩ := h
  obtain rfl := pure_eq_ok.mp hinfo
  obtain ⟨hflag, hcount, hall⟩ := rewritable_of_extensions hmap hexts
  obtain ⟨hreceived, hprbs⟩ := FlowContext.received_interpret c parsed.header hwire
  refine ⟨hcount, fun e he => (hall e he).delimited, hprbs, fun hsymbols => ?_, ?_⟩
  · have hid : wire.wireId.toNat < 2 ^ SectionWord.id.width := by
      obtain ⟨-, rfl⟩ := WireSection.parse_eq_ok.mp hwire
      exact (BitField.toNat_ofNat_get_lt _ _).2
    obtain ⟨tagged, htagged, hretag⟩ := IdTagging.tag_strip htag hid
    obtain ⟨bytes, hbytes⟩ := FlowContext.encode_interpret c parsed.header hwire htagged hsymbols
      (!exts.isEmpty)
    obtain ⟨segments, hsegments⟩ := Message.encodeChain_of_rewritable hall
    have hinner : c.tagging.tag (c.interpret parsed.header parsed.type wire).id c.mu =
        .ok tagged := hretag
    rw [Message.encodeSection]
    dsimp only
    rw [hinner, ok_bind, hbytes, ok_bind, hsegments]
    exact ⟨_, rfl⟩
  · rw [ExtendedSection.received]
    dsimp only
    rw [hflag, hreceived]
    congr 1
    exact (List.map_congr_left fun e he => (hall e he).received).trans (List.map_id _)

lemma rewritable_of_bodies {parsed : MessageHeader.Parsed} {count index : ℕ}
    {sections : List ExtendedSection} (hmap : c.usesMap = false)
    (htag : ∃ tagged, c.tagging.tag 0 c.mu = .ok tagged)
    (h : bodies c parsed count index data = .ok sections) :
    sections.length = count ∧ ∀ s ∈ sections, s.Rewritable c parsed := by
  induction count generalizing index data sections with
  | zero =>
    rw [bodies, pure_eq_ok] at h
    subst h
    exact ⟨rfl, List.forall_mem_nil _⟩
  | succ count ih =>
    simp only [bodies, bind_eq_ok, pure_eq_ok, Prod.exists] at h
    obtain ⟨s, _, hbody, others, hothers, rfl⟩ := h
    obtain ⟨hlength, hall⟩ := ih hothers
    exact ⟨by rw [List.length_cons, hlength],
      List.forall_mem_cons.mpr ⟨rewritable_of_body hmap htag hbody, hall⟩⟩

end Receiver

/-! ## Messages -/

lemma Extension.isBundles_iff {e : Extension} :
    e.isBundles = true ↔ e.kind = .weightBundles := by
  cases e <;> simp [isBundles, buffer?, kind]

namespace Message

/-- Bundles of weights are nowhere but at the end of the last section. -/
def BundlesLast (sections : List ExtendedSection) : Prop :=
  ∀ i s j e, sections[i]? = some s → s.extensions[j]? = some e → e.kind = .weightBundles →
    i + 1 = sections.length ∧ j + 1 = s.extensions.length

/-- By induction on the sections: what holds of the places of all sections holds of the places behind
the first one. -/
lemma checkExtensions_of_bundlesLast {sections : List ExtendedSection} (hlast : BundlesLast sections)
    (hcount : ∀ s ∈ sections, s.extensions.length ≤ maxExtensions) :
    checkExtensions sections = .ok () := by
  induction sections with
  | nil => rfl
  | cons s sections ih =>
    obtain ⟨hhead, htail⟩ := List.forall_mem_cons.mp hcount
    have hrest : BundlesLast sections := by
      intro i s' j e hs he hkind
      obtain ⟨hi, hj⟩ := hlast (i + 1) s' j e hs he hkind
      exact ⟨Nat.succ_injective hi, hj⟩
    have hinner : (if sections.isEmpty then s.extensions.dropLast else s.extensions).any
        Extension.isBundles = false := by
      rw [List.any_eq_false]
      intro e he hbundles
      split_ifs at he with hempty
      · obtain ⟨j, hj, rfl⟩ := List.getElem_of_mem he
        rw [List.length_dropLast] at hj
        rw [List.getElem_dropLast] at hbundles
        obtain ⟨-, hlast'⟩ := hlast 0 s j _ rfl (List.getElem?_eq_getElem (by omega))
          (isBundles_iff.mp hbundles)
        omega
      · obtain ⟨j, hj, rfl⟩ := List.getElem_of_mem he
        obtain ⟨hone, -⟩ := hlast 0 s j _ rfl (List.getElem?_eq_getElem hj)
          (isBundles_iff.mp hbundles)
        simp only [List.length_cons, Nat.zero_add, Nat.right_eq_add, List.length_eq_zero_iff] at hone
        exact hempty (by rw [hone]; rfl)
    rw [checkExtensions, if_neg (Nat.not_lt_of_le hhead)]
    dsimp only
    rw [hinner]
    exact ih hrest htail

/-- A message with segments becomes a packet when there is room for one. -/
lemma run_encode_of_segments {m : Message} {mu : Numerology} {tagging : IdTagging}
    {memory left : Memory} {segments : List Segment} (hvalid : m.validate = .ok ())
    (hroom : memory.takeSlot = .ok left) (h : m.segments mu tagging = .ok segments) :
    ∃ packet after, (m.encode mu tagging).run memory = (.ok packet, after) ∧
      packet.segments = segments := by
  rw [run_encode_of_written hvalid h, hroom]
  exact ⟨_, _, rfl, rfl⟩

end Message

namespace Receiver

variable {c : FlowContext} {data : Bytes} {m : Message}

/-- A message that was read is as a receiver reads it. -/
lemma rewritable_of_message (hmap : c.usesMap = false)
    (htag : ∃ tagged, c.tagging.tag 0 c.mu = .ok tagged) (h : message c data = .ok m)
    (hsymbols : ∀ s ∈ m.sections, 1 ≤ s.info.numSymbols.toNat ∧
      s.info.numSymbols.toNat ≤ symbolsPerSlot)
    (hlast : Message.BundlesLast m.sections) :
    m.validate = .ok () ∧ (∃ segments, m.segments c.mu c.tagging = .ok segments) ∧
      m.Legible c.weights ∧ m.onWire c.carrierPrbs = m := by
  simp only [message, bind_eq_ok, pure_eq_ok] at h
  obtain ⟨parsed, hheader, sections, hsections, rfl⟩ := h
  obtain ⟨hparse, hpos, hmax⟩ := acceptHeader_eq_ok.mp hheader
  obtain ⟨honWire, hmixed⟩ := MessageHeader.onWire_parse hparse
  obtain ⟨-, -, -, hsupported, -⟩ := MessageHeader.parse_eq_ok.mp hparse
  obtain ⟨hcount, hall⟩ := rewritable_of_bodies hmap htag hsections
  refine ⟨?_, ?_, ⟨hmixed, fun s hs => (hall s hs).prbs, fun s hs => (hall s hs).delimited⟩, ?_⟩
  · have hcheck := Message.checkExtensions_of_bundlesLast hlast fun s hs => (hall s hs).count
    have hlength : ¬(sections.isEmpty = true ∨ maxSections < sections.length) := by
      rw [List.isEmpty_iff_length_eq_zero, hcount]
      omega
    rw [Message.validate, hsupported]
    exact (if_neg hlength).trans hcheck
  · obtain ⟨header, hencode⟩ := MessageHeader.encode_parse hparse sections.length
    obtain ⟨parts, hparts⟩ := exists_mapM_iff.mpr fun s hs =>
      (hall s hs).encode (hsymbols s hs)
    rw [Message.segments, hencode, ok_bind, hparts]
    exact ⟨_, rfl⟩
  · rw [Message.onWire]
    dsimp only
    rw [honWire]
    congr 1
    exact (List.map_congr_left fun s hs => (hall s hs).received).trans (List.map_id _)

/-- A message that was read can be written, and comes back from its packet to the receiver that read
it, without an extension whose lengths differ: outside the flows that take their resource blocks from
a map, when the numerology can be tagged and there is room for a packet. -/
theorem parse_rewritten {counts : ReceiveCounts} {memory left : Memory}
    (h : (parse c data counts).1 = .ok m) (hmap : c.usesMap = false)
    (htag : ∃ tagged, c.tagging.tag 0 c.mu = .ok tagged)
    (hsymbols : ∀ s ∈ m.sections, 1 ≤ s.info.numSymbols.toNat ∧
      s.info.numSymbols.toNat ≤ symbolsPerSlot)
    (hlast : Message.BundlesLast m.sections) (hroom : memory.takeSlot = .ok left) :
    ∃ packet after, (m.encode c.mu c.tagging).run memory = (.ok packet, after) ∧
      ∀ counts, (parse c packet.wire counts).1 = .ok m ∧
        (parse c packet.wire counts).2.lengthMismatches = counts.lengthMismatches := by
  rw [parse_eq_message] at h
  obtain ⟨hvalid, ⟨segments, hsegments⟩, hlegible, honWire⟩ :=
    rewritable_of_message hmap htag h hsymbols hlast
  obtain ⟨packet, after, hencode, rfl⟩ := Message.run_encode_of_segments hvalid hroom hsegments
  refine ⟨packet, after, hencode, fun counts => ?_⟩
  have hread := yields_readMessage hmap hvalid hsegments hlegible []
  rw [honWire, List.append_nil] at hread
  exact hread.parse_eq counts

/-- A receiver that knows the carrier, but not the number of weights in a vector. -/
def plainFlow : FlowContext where
  mu := .khz30
  carrier := 0
  antenna := 0
  carrierPrbs := some 273
  tagging := .highBits 2

/-- A packet with spare bits that are set, an antenna mask in two words in place of one, and bundles
that do not fill their last word. -/
def loosePacket : Bytes :=
  [0x90, 7, 0x10, 0x40, 1, 1, 0x91, 0xff, 0x40, 0x10, 0, 0, 0xff, 0xfe, 0x80, 5,
    0x87, 2, 0, 0x0f, 1, 2, 3, 4, 0x0b, 0, 3, 0xbf, 2, 0, 0, 1, 0x80, 3, 0xff, 0xff, 9]

/-- The message of the packet. -/
def looseMessage : Message where
  direction := .dl
  type := .regular
  header := { frame := 7, subframe := 1, slot := 1, compression := .blockFloatingPoint, iqWidth := 9 }
  sections := [⟨{ id := 1, numPrb := 273, allPrbs := true, numSymbols := 14, reMask := 0xfff,
                  beamId := 5, compression := .blockFloatingPoint, iqWidth := 9, extended := true },
    [.antennaMask 0x0f,
      .weightBundles
        { beamsOnly := true, bundlePrbs := 2, method := .none, width := 16, count := 1
          payload := ⟨0, [0x80, 3]⟩ }]⟩]

lemma bundlesLast_looseMessage : Message.BundlesLast looseMessage.sections := by
  intro i s j e hs he hkind
  cases i with
  | succ i => cases hs
  | zero =>
    cases hs
    match j, he with
    | 0, he =>
      cases he
      cases hkind
    | 1, _ => exact ⟨rfl, rfl⟩

/-- The loose packet is rewritten to one that says the same without a mismatch. -/
theorem parse_rewritten_loosePacket :
    (parse plainFlow loosePacket {}).1 = .ok looseMessage ∧
      ∃ packet after,
        (looseMessage.encode plainFlow.mu plainFlow.tagging).run {} = (.ok packet, after) ∧
          ∀ counts, (parse plainFlow packet.wire counts).1 = .ok looseMessage ∧
            (parse plainFlow packet.wire counts).2.lengthMismatches = counts.lengthMismatches := by
  have hread : (parse plainFlow loosePacket {}).1 = .ok looseMessage := by decide +kernel
  exact ⟨hread, parse_rewritten hread rfl ⟨_, rfl⟩ (by decide) bundlesLast_looseMessage rfl⟩

end Receiver

end OpenFronthaul
