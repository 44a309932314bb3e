import OpenFronthaul.Proofs.Producer.Success

/-!
# Frames with bundles of weights

The estimate of how many bundles fit a frame counts the headers, the section, the fixed part of the
extension and up to three zeros behind it.  Under modulation compression the section has its scaling
as another extension, a word that the estimate does not count.  So an element with no more bundles
than the estimate fits a frame that is large enough for its headers, except that under modulation
compression it may be up to a word too long (`PrbElement.bundledLength_le`), and then the producer
refuses it (`Producer.buildMap_fits`).
-/

namespace OpenFronthaul

/-! ## Failures for the size of a frame -/

/-- A frame would be too long, as known from its bundles or from all of its bytes. -/
def Error.isFrameSize : Error → Bool
  | tooManyBundles _ _ _ | frameTooLong _ _ => true
  | _ => false

/-- A computation never fails for the size of a frame. -/
def SizeFree {α : Type} (x : Except Error α) : Prop :=
  ∀ e, x = .error e → e.isFrameSize = false

section SizeFree

variable {α β : Type} {x : Except Error α} {e : Error}

lemma sizeFree_pure (a : α) : SizeFree (pure a) :=
  fun _ h => nomatch h

lemma SizeFree.bind {f : α → Except Error β} (hx : SizeFree x) (hf : ∀ a, SizeFree (f a)) :
    SizeFree (x >>= f) := by
  intro e h
  obtain h | ⟨a, -, h⟩ := bind_eq_error.mp h
  · exact hx e h
  · exact hf a e h

lemma SizeFree.guard {p : Prop} [Decidable p] (he : e.isFrameSize = false) (hx : SizeFree x) :
    SizeFree (if p then throw e else x) := by
  intro e' h
  obtain ⟨-, rfl⟩ | ⟨-, h⟩ := guard_eq_error.mp h
  · exact he
  · exact hx e' h

lemma SizeFree.check {p : Prop} [Decidable p] {f : β → Except Error α} (he : e.isFrameSize = false)
    (hx : SizeFree x) : SizeFree (if p then throw e >>= f else x) :=
  hx.guard he

lemma BitField.sizeFree_check (field : BitField) (name : WireField) (value : ℕ) :
    SizeFree (field.check name value) := by
  rw [BitField.check]
  split_ifs
  · exact sizeFree_pure ()
  · rintro _ ⟨⟩
    rfl

lemma MessageHeader.sizeFree_encode (h : MessageHeader) (direction : Direction) (type : SectionType)
    (sections : ℕ) : SizeFree (h.encode direction type sections) := by
  have hpart : SizeFree (h.encodeTypePart type) := by
    rintro _ herror
    cases type <;> cases herror <;> rfl
  exact (BitField.sizeFree_check _ _ _).bind fun _ => (BitField.sizeFree_check _ _ _).bind fun _ =>
    (BitField.sizeFree_check _ _ _).bind fun _ => (BitField.sizeFree_check _ _ _).bind fun _ =>
    hpart.bind fun _ => sizeFree_pure _

lemma IdTagging.sizeFree_tag (tagging : IdTagging) (id : UInt16) (mu : Numerology) :
    SizeFree (tagging.tag id mu) := by
  have htag : SizeFree (tagging.checkTag mu) := by
    cases tagging with
    | untagged => exact sizeFree_pure ()
    | highBits bits => exact ((sizeFree_pure ()).guard rfl).guard rfl
  refine htag.bind fun _ => SizeFree.check rfl ?_
  cases tagging with
  | untagged => exact sizeFree_pure _
  | highBits bits => exact sizeFree_pure _

lemma Section.sizeFree_encode (s : Section) (wireId : ℕ) (extended : Bool) :
    SizeFree (s.encode .regular wireId extended) :=
  (BitField.sizeFree_check _ _ _).bind fun _ => (BitField.sizeFree_check _ _ _).bind fun _ =>
    (BitField.sizeFree_check _ _ _).bind fun _ => (BitField.sizeFree_check _ _ _).bind fun _ =>
    (BitField.sizeFree_check _ _ _).bind fun _ =>
    SizeFree.check rfl ((sizeFree_pure _).bind fun _ => sizeFree_pure _)

lemma Extension.sizeFree_modulationScaling (m : ModulationScaling) (more : Bool) :
    SizeFree ((Extension.modulationScaling m).encode more) :=
  ((sizeFree_pure _).guard rfl).bind fun _ =>
    ((sizeFree_pure _).guard rfl).bind fun _ => sizeFree_pure _

lemma Extension.sizeFree_weightBundles (b : WeightBundles) (more : Bool) :
    SizeFree ((Extension.weightBundles b).encode more) := by
  have hwidth : SizeFree (WeightCompression.checkWidth b.width) := (sizeFree_pure ()).guard rfl
  have hheader : SizeFree (b.encodeHeader more) :=
    hwidth.bind fun _ => SizeFree.check rfl (sizeFree_pure _)
  exact hheader.bind fun _ => sizeFree_pure _

lemma Message.sizeFree_encodeChain {extensions : List Extension}
    (h : ∀ x ∈ extensions, ∀ more, SizeFree (x.encode more)) :
    SizeFree (encodeChain extensions) := by
  induction extensions with
  | nil => exact sizeFree_pure []
  | cons x extensions ih =>
    obtain ⟨hx, hrest⟩ := List.forall_mem_cons.mp h
    exact (hx _).bind fun _ => (ih hrest).bind fun _ => sizeFree_pure _

lemma Message.sizeFree_validate (m : Message) : SizeFree m.validate := by
  have hextensions (sections : List ExtendedSection) : SizeFree (checkExtensions sections) := by
    induction sections with
    | nil => exact sizeFree_pure ()
    | cons s sections ih => exact (ih.guard rfl).guard rfl
  exact ((hextensions m.sections).guard rfl).guard rfl

end SizeFree

/-! ## Bytes of extensions -/

namespace Extension

variable {more : Bool} {encoded : Encoded}

lemma length_modulationScaling {m : ModulationScaling}
    (h : (modulationScaling m).encode more = .ok encoded) : encoded.wire.length = 4 := by
  simp only [encode, bind_eq_ok, pure_eq_ok] at h
  obtain ⟨contents, hcontents, bytes, hbytes, rfl⟩ := h
  rw [Encoded.wire, Encoded.segments, List.flatMap_singleton, Segment.bytes, length_block hbytes,
    blockLength_eq, ModulationScaling.length_encodeBody hcontents]

lemma length_weightBundles {b : WeightBundles} (h : (weightBundles b).encode more = .ok encoded) :
    encoded.wire.length =
      alignUp (WeightBundles.headerLength + b.payload.bytes.length) wordLength := by
  simp only [encode, bind_eq_ok, pure_eq_ok] at h
  obtain ⟨⟨header, zeros⟩, hheader, rfl⟩ := h
  obtain ⟨words, -, -, htotal, hzeros, -, rfl⟩ := WeightBundles.encodeHeader_eq_ok hheader
  rw [alignUp_wordLength]
  simp only [Encoded.wire, Encoded.segments, List.flatMap_cons, List.flatMap_nil, Segment.bytes,
    List.length_append, List.length_cons, Bytes.length_ofNat, Bytes.length_zeros, List.length_nil]
  unfold WeightBundles.headerLength wordLength at htotal
  unfold WeightBundles.headerLength
  omega

end Extension

lemma Message.length_encodeChain_cons {x : Extension} {extensions : List Extension}
    {segments : List Segment} (h : encodeChain (x :: extensions) = .ok segments) :
    ∃ more encoded rest, x.encode more = .ok encoded ∧ encodeChain extensions = .ok rest ∧
      (segments.flatMap Segment.bytes).length =
        encoded.wire.length + (rest.flatMap Segment.bytes).length := by
  simp only [encodeChain, bind_eq_ok, pure_eq_ok] at h
  obtain ⟨encoded, hencoded, rest, hrest, rfl⟩ := h
  exact ⟨_, encoded, rest, hencoded, hrest, by
    rw [List.flatMap_append, List.length_append, Extension.Encoded.wire]⟩

/-! ## Elements with bundles -/

namespace PrbElement

/-- An element with new weights in bundles that are all of a buffer, and not more than the estimate
for frames of the given size. -/
structure IsBundled (e : PrbElement) (mtu : ℕ) (payload : SharedBuffer) : Prop where
  update : e.weightUpdate = true
  bundlePrbs : e.weights.bundlePrbs.toNat ≠ 0
  buffer : e.weights.bundles = some payload
  estimate : ∃ length most,
    WeightBundles.bundleLength e.weights.count.toNat e.weights.width e.weights.bundleMethod =
      .ok length ∧
    WeightBundles.maxBundles e.weights.count.toNat e.weights.width e.weights.bundleMethod mtu =
      .ok most ∧
    payload.bytes.length = e.weights.bundleCount.toNat * length ∧
    e.weights.bundleCount.toNat ≤ most

/-- The extension with the scaling of an element, where it has one. -/
def scaling (e : PrbElement) : List Extension :=
  if e.compression = .modulation then [.modulationScaling ⟨e.shifted, e.scaler⟩] else []

/-- The extension with the bundles of an element. -/
def bundled (e : PrbElement) (payload : SharedBuffer) : WeightBundles where
  bundlePrbs := e.weights.bundlePrbs
  method := e.weights.bundleMethod
  width := e.weights.width
  count := e.weights.bundleCount
  payload := payload

/-- Bytes of the frame of an element with so many bytes of bundles. -/
def bundledLength (e : PrbElement) (bundles : ℕ) : ℕ :=
  WeightBundles.ethernetLength + Ecpri.headerLength + SectionType.regular.headerLength
    + SectionType.regular.sectionLength + (if e.compression = .modulation then 4 else 0)
    + alignUp (WeightBundles.headerLength + bundles) Extension.wordLength

variable {e : PrbElement} {mtu : ℕ} {payload : SharedBuffer}

/-- In a frame that is large enough for its headers there is room for the bundles of an element, up
to the word for the scaling. -/
lemma bundledLength_le (h : e.IsBundled mtu payload) (hleast : e.bundledLength 0 ≤ mtu) :
    e.bundledLength payload.bytes.length ≤ mtu + if e.compression = .modulation then 4 else 0 := by
  obtain ⟨length, most, hlength, hmost, hpayload, hle⟩ := h.estimate
  rw [WeightBundles.maxBundles, hlength, ok_bind, pure_eq_ok] at hmost
  have hroom : payload.bytes.length ≤ mtu - WeightBundles.frameOverhead := by
    rw [hpayload]
    subst hmost
    exact (Nat.mul_le_mul_right length hle).trans (Nat.div_mul_le_self _ _)
  have hoverhead : WeightBundles.frameOverhead = 49 := rfl
  simp only [bundledLength, Extension.alignUp_wordLength, WeightBundles.ethernetLength,
    Ecpri.headerLength, SectionType.headerLength, SectionType.sectionLength,
    WeightBundles.headerLength] at hleast ⊢
  split_ifs at hleast ⊢
  · omega
  · omega

end PrbElement

namespace Producer

variable {settings : ProducerSettings} {p after : Producer} {o : Order} {e : PrbElement}
  {index start count : ℕ} {mtu : ℕ} {payload : SharedBuffer} {m : Message}

/-- An element whose bundles are within the estimate is not refused for them. -/
lemma elementExtensions_of_isBundled (h : e.IsBundled mtu payload) :
    elementExtensions e .b mtu = .ok (e.scaling ++ [.weightBundles (e.bundled payload)]) := by
  obtain ⟨length, most, hlength, hmost, -, hle⟩ := h.estimate
  have hweights : weightExtension e.weights mtu = .ok (.weightBundles (e.bundled payload)) := by
    rw [weightExtension, if_neg h.bundlePrbs, h.buffer]
    dsimp only
    rw [hmost, ok_bind, if_neg (Nat.not_lt_of_le hle)]
    rfl
  rw [elementExtensions, if_pos ⟨rfl, h.update⟩, hweights]
  rfl

lemma elementMessage_of_isBundled {direction : Direction} {slot : ℕ}
    (h : e.IsBundled settings.mtu payload)
    (hmessage : elementMessage settings direction slot .b e index start count = .ok m) :
    m.type = .regular ∧ ∃ info,
      m.sections = [⟨info, e.scaling ++ [.weightBundles (e.bundled payload)]⟩] := by
  simp only [elementMessage, elementExtensions_of_isBundled h, ok_bind, pure_eq_ok] at hmessage
  subst hmessage
  exact ⟨rfl, _, rfl⟩

/-- The bytes of the message of an element with bundles. -/
lemma length_segments {direction : Direction} {slot : ℕ} {segments : List Segment}
    (h : e.IsBundled settings.mtu payload)
    (hmessage : elementMessage settings direction slot .b e index start count = .ok m)
    (hsegments : m.segments settings.mu settings.tagging = .ok segments) :
    WeightBundles.ethernetLength + Ecpri.headerLength
      + (segments.flatMap Segment.bytes).length = e.bundledLength payload.bytes.length := by
  obtain ⟨htype, info, hsections⟩ := elementMessage_of_isBundled h hmessage
  obtain ⟨header, parts, hheader, hparts, hbytes⟩ := Message.segments_eq_ok hsegments
  rw [htype, hsections] at hheader
  simp only [hsections, htype, List.mapM_cons, List.mapM_nil, Message.encodeSection, bind_eq_ok,
    pure_eq_ok] at hparts
  obtain ⟨_, ⟨wireId, -, body, hbody, chain, hchain, rfl⟩, _, rfl, rfl⟩ := hparts
  obtain ⟨-, hheader⟩ :=
    MessageHeader.parse_encode hheader (fun hmixed => absurd hmixed (by decide)) (by simp) []
  obtain ⟨-, hbody⟩ := Section.parse_encode hbody rfl []
  have hextensions : (chain.flatMap Segment.bytes).length =
      (if e.compression = .modulation then 4 else 0)
        + alignUp (WeightBundles.headerLength + payload.bytes.length) Extension.wordLength := by
    have hbundles {segments : List Segment} (hsegments :
        Message.encodeChain [.weightBundles (e.bundled payload)] = .ok segments) :
        (segments.flatMap Segment.bytes).length =
          alignUp (WeightBundles.headerLength + payload.bytes.length) Extension.wordLength := by
      obtain ⟨_, encoded, rest, hencoded, hrest, hlength⟩ :=
        Message.length_encodeChain_cons hsegments
      obtain rfl := pure_eq_ok.mp hrest
      rw [hlength, Extension.length_weightBundles hencoded]
      rfl
    rw [PrbElement.scaling] at hchain
    split_ifs at hchain ⊢ with hmodulation
    · obtain ⟨_, encoded, rest, hencoded, hrest, hlength⟩ :=
        Message.length_encodeChain_cons hchain
      rw [hlength, Extension.length_modulationScaling hencoded, hbundles hrest]
    · rw [hbundles hchain, Nat.zero_add]
  rw [hbytes, List.length_append, hheader, List.flatten_cons, List.flatten_nil, List.append_nil,
    List.flatMap_cons, List.length_append, Segment.bytes, hbody, hextensions,
    PrbElement.bundledLength]
  omega

/-- The packet of an element with bundles fills the frame that was counted for it. -/
lemma IsFramed.length_of_isBundled {sequence : UInt8} {packet : Packet}
    (h : IsFramed settings o sequence e index packet) (hcategory : o.category = .b)
    (hbundled : e.IsBundled settings.mtu payload) :
    packet.length + WeightBundles.ethernetLength = e.bundledLength payload.bytes.length ∧
      e.bundledLength payload.bytes.length ≤ settings.mtu := by
  obtain ⟨start, count, m, segments, pooled, -, hmessage, -, hsegments, hheader⟩ := h
  rw [hcategory] at hmessage
  obtain ⟨header, hsize, hwire, hfits⟩ := addHeader_eq_ok hheader
  obtain ⟨hlength, -⟩ := Ecpri.parse_setPayloadSize hsize
  have hsegments := length_segments hbundled hmessage hsegments
  have hpacket : packet.length = Ecpri.headerLength + (segments.flatMap Segment.bytes).length := by
    rw [← Packet.length_wire, hwire, List.length_append, hlength]
    rfl
  rw [hpacket] at hfits ⊢
  omega

/-! ## Refusals for the size of a frame -/

lemma sizeFree_run_encode {direction : Direction} {slot : ℕ} {memory : Memory}
    (hbundled : e.IsBundled settings.mtu payload)
    (hmessage : elementMessage settings direction slot .b e index start count = .ok m) :
    SizeFree ((m.encode settings.mu settings.tagging).run memory).1 := by
  obtain ⟨htype, info, hsections⟩ := elementMessage_of_isBundled hbundled hmessage
  have hextensions : ∀ x ∈ e.scaling ++ [.weightBundles (e.bundled payload)],
      ∀ more, SizeFree (x.encode more) := by
    refine List.forall_mem_append.mpr ⟨fun x hx => ?_, List.forall_mem_singleton.mpr
      (Extension.sizeFree_weightBundles _)⟩
    rw [PrbElement.scaling] at hx
    split_ifs at hx
    · rw [List.mem_singleton.mp hx]
      exact Extension.sizeFree_modulationScaling _
    · cases hx
  have hsegments : SizeFree (m.segments settings.mu settings.tagging) := by
    rw [Message.segments, hsections, htype, List.mapM_cons, List.mapM_nil]
    have hsection : SizeFree (Message.encodeSection settings.mu settings.tagging .regular
        ⟨info, e.scaling ++ [.weightBundles (e.bundled payload)]⟩) :=
      (IdTagging.sizeFree_tag _ _ _).bind fun _ => (Section.sizeFree_encode _ _ _).bind fun _ =>
        (Message.sizeFree_encodeChain hextensions).bind fun _ => sizeFree_pure _
    exact (MessageHeader.sizeFree_encode _ _ _ _).bind fun _ =>
      (hsection.bind fun _ => (sizeFree_pure _).bind fun _ => sizeFree_pure _).bind fun _ =>
        sizeFree_pure _
  have hvalid := m.sizeFree_validate
  rw [Message.run_encode]
  rcases hcheck : m.validate with err | ⟨⟩
  · rintro _ ⟨⟩
    exact hvalid err hcheck
  rcases memory.takeSlot with err | left
  · rintro _ ⟨⟩
    rfl
  rcases hparts : m.segments settings.mu settings.tagging with err | segments
  · rintro _ ⟨⟩
    exact hsegments err hparts
  · exact sizeFree_pure _

/-- A header cannot be put in front of a packet for the size of the frame only if the frame is too
long. -/
lemma lt_of_addHeader_eq_error {flow : Flow} {sequence : UInt8} {packet : Packet} {err : Error}
    (h : addHeader settings flow sequence packet = .error err) (hsize : err.isFrameSize = true) :
    settings.mtu < WeightBundles.ethernetLength + Ecpri.headerLength + packet.length := by
  rw [addHeader, bind_eq_error] at h
  obtain hlink | ⟨header, hheader, h⟩ := h
  · rcases hset : Ecpri.setPayloadSize (settings.framer.header flow.carrier flow.antenna sequence)
      packet.length with cause | header
    · rw [hset] at hlink
      cases hlink
      cases hsize
    · rw [hset] at hlink
      cases hlink
  · rw [liftLink_eq_ok, ← Packet.length_wire] at hheader
    obtain ⟨hlength, -⟩ := Ecpri.parse_setPayloadSize hheader
    dsimp only at h
    rw [check_eq_error, length_prepend, hlength] at h
    obtain ⟨hlong, -⟩ | ⟨-, h⟩ := h
    · omega
    · cases h

/-- An element with bundles that is refused for the size of its frame has a frame that is too
long. -/
lemma Fails.lt_of_isBundled {err : Error} {numbered : Bool}
    (h : Fails p o (e, index) err numbered) (hcategory : o.category = .b)
    (hbundled : e.IsBundled p.settings.mtu payload) (hsize : err.isFrameSize = true) :
    p.settings.mtu < e.bundledLength payload.bytes.length := by
  have hother (hfree : err.isFrameSize = false) : p.settings.mtu <
      e.bundledLength payload.bytes.length := absurd (hsize.symm.trans hfree) nofun
  cases h with
  | unsendable hsymbols hmessage =>
    rw [hcategory, elementMessage, elementExtensions_of_isBundled hbundled] at hmessage
    cases hmessage
  | unwritten hsymbols hmessage hencode =>
    rw [hcategory] at hmessage
    exact hother (sizeFree_run_encode hbundled hmessage err (congrArg Prod.fst hencode))
  | @unframed start count m packet memory hsymbols hmessage hencode hheader =>
    rw [hcategory] at hmessage
    obtain ⟨-, hsegments⟩ := Message.run_encode_eq_ok hencode
    have hsegments := length_segments hbundled hmessage hsegments
    have hwire : packet.length = (packet.segments.flatMap Segment.bytes).length :=
      packet.length_wire.symm
    rw [← hsegments, ← hwire]
    exact lt_of_addHeader_eq_error hheader hsize
  | unrecorded hinfo hrecord =>
    refine hother ?_
    cases hkey : p.store.hasKey o.key with
    | false =>
      rw [SectionStore.add_of_not_hasKey _ hkey] at hrecord
      cases hrecord
      rfl
    | true =>
      rcases Nat.lt_or_ge (p.store.entries o.key).length p.store.capacity with hroom | hfull
      · obtain ⟨store, hadd, -⟩ := SectionStore.add_of_room _ hkey hroom
        cases hrecord.symm.trans hadd
      · rw [SectionStore.add_of_full _ hkey hfull] at hrecord
        cases hrecord
        rfl

/-- The bundles of an element that are not more than the estimate are in a frame that is not too
long when the element is sent.  When the element is refused for the size of its frame instead, the
frame would be too long, and then either the element has a scaling, which the estimate does not
count, or the MTU leaves no room for the headers. -/
theorem buildMap_fits (p : Producer) (o : Order) (map : PrbMap) (hcategory : o.category = .b) :
    (∀ packets after, (buildMap o map).run p = (.ok packets, after) →
      List.Forall₂
        (fun x packet => ∀ payload, x.1.IsBundled p.settings.mtu payload →
          packet.length + WeightBundles.ethernetLength =
            x.1.bundledLength payload.bytes.length ∧
          x.1.bundledLength payload.bytes.length ≤ p.settings.mtu)
        (map.elements.zipIdx.filter fun x => keeps p.settings o x.1) packets) ∧
    ∀ err after, (buildMap o map).run p = (.error err, after) →
      ∃ done x rest next numbered, map.elements.zipIdx = done ++ x :: rest ∧
        Traces o p next (done.filterMap (recordFor? p.settings o)) done.length
          (done.filterMap (recordFor? p.settings o)).length ∧
        Fails next o x err numbered ∧
        ∀ payload, x.1.IsBundled p.settings.mtu payload → err.isFrameSize = true →
          p.settings.mtu < x.1.bundledLength payload.bytes.length ∧
            (x.1.compression = .modulation ∨ p.settings.mtu < x.1.bundledLength 0) := by
  refine ⟨fun packets after h => ?_, fun err after h => ?_⟩
  · obtain ⟨-, hframed⟩ := run_buildMap_traces h
    refine forall₂_of_zipIdx (hframed.imp ?_)
    intro x packet hx payload hbundled
    exact hx.length_of_isBundled hcategory hbundled
  · obtain ⟨done, x, rest, next, numbered, hsplit, hnext, hfails, -⟩ := buildRange_error_traces h
    rw [PrbMap.size, List.drop_zero, List.take_of_length_le (by rw [List.length_zipIdx])] at hsplit
    refine ⟨done, x, rest, next, numbered, hsplit, hnext, hfails, fun payload hbundled hsize => ?_⟩
    rw [← hnext.settings] at hbundled ⊢
    have hlong := hfails.lt_of_isBundled hcategory hbundled hsize
    refine ⟨hlong, or_iff_not_imp_left.mpr fun hplain => ?_⟩
    by_contra hleast
    have hle := PrbElement.bundledLength_le hbundled (Nat.le_of_not_lt hleast)
    rw [if_neg hplain] at hle
    exact Nat.not_lt_of_le hle hlong

namespace FullFrame

open BadBeam (producer)

/-- As many bundles of two weights as fit a frame of 1500 bytes by the estimate. -/
def buffer : SharedBuffer := ⟨1, Bytes.zeros 1450⟩

/-- An element with all of them. -/
def element (compression : IqCompression) : PrbElement where
  numPrb := 10
  weightUpdate := true
  compression := compression
  weights :=
    { bundlePrbs := 1, count := 2, width := 16, bundles := some buffer, bundleCount := 145 }

/-- The order for the first slot, with beams that the radio unit processes. -/
def order : Order :=
  ⟨⟨.dl, 0, 0⟩, 0, .b, 0⟩

lemma length_buffer : buffer.bytes.length = 1450 := Bytes.length_zeros 1450

lemma isBundled (compression : IqCompression) :
    (element compression).IsBundled producer.settings.mtu buffer where
  update := rfl
  bundlePrbs := Nat.one_ne_zero
  buffer := rfl
  estimate :=
    have hlength : WeightBundles.bundleLength 2 16 .none = .ok 10 := by decide
    have hmost : WeightBundles.maxBundles 2 16 .none 1500 = .ok 145 := by decide
    ⟨10, 145, hlength, hmost, length_buffer, le_rfl⟩

/-- Without a scaling the element is sent in a frame with two bytes to spare. -/
theorem buildMap_fits_uncompressed : ∃ packet after,
    (buildMap order ⟨.dl, [element .none]⟩).run producer = (.ok [packet], after) ∧
      packet.length + WeightBundles.ethernetLength = 1498 := by
  obtain ⟨hsent, -⟩ := buildMap_fits producer order ⟨.dl, [element .none]⟩ rfl
  have hok : ((buildMap order ⟨.dl, [element .none]⟩).run producer).1.isOk = true := by
    decide +kernel
  have hkept : ((⟨.dl, [element .none]⟩ : PrbMap).elements.zipIdx.filter fun x =>
      keeps producer.settings order x.1) = [(element .none, 0)] := by
    decide +kernel
  obtain ⟨packets, after, hrun⟩ := exists_run_eq_ok hok
  have hfits := hsent packets after hrun
  rw [hkept, List.forall₂_cons_left_iff] at hfits
  obtain ⟨packet, _, hpacket, hrest, rfl⟩ := hfits
  obtain rfl := List.forall₂_nil_left_iff.mp hrest
  obtain ⟨hlength, -⟩ := hpacket buffer (isBundled .none)
  rw [length_buffer] at hlength
  exact ⟨packet, after, hrun, hlength⟩

/-- With a scaling the same element is refused for a frame that is two bytes too long. -/
theorem scaled_refused :
    (element .modulation).IsBundled producer.settings.mtu buffer ∧
      ((buildMap order ⟨.dl, [element .modulation]⟩).run producer).1 =
        .error (.frameTooLong 1502 1500) :=
  ⟨isBundled .modulation, by decide +kernel⟩

end FullFrame

end Producer

end OpenFronthaul
