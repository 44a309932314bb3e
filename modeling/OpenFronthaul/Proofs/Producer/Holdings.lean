import OpenFronthaul.Proofs.Producer.Failures

/-!
# What is held after a packet was written or a map was built

A packet holds a slot of the pool, and a reference to a shared buffer if bundles of weights close
its message.  Whoever gets packets holds what they do and nothing else, and nothing at all when a
message could not be written or a map could not be built, whatever was booked on the way there
(`Producer.no_leak`).
-/

namespace OpenFronthaul

/-! ## Shared buffers of a packet -/

namespace Segment

lemma filterMap_join (bytes : Bytes) (segments : List Segment) :
    (join bytes segments).filterMap buffer? = segments.filterMap buffer? := by
  unfold join
  split
  · rfl
  · split_ifs
    · rfl
    · rfl

/-- Joining segments changes no reference. -/
lemma filterMap_coalesce (segments : List Segment) :
    (coalesce segments).filterMap buffer? = segments.filterMap buffer? := by
  induction segments with
  | nil => rfl
  | cons s segments ih =>
    cases s with
    | owned bytes =>
      rw [coalesce, filterMap_join, ih]
      rfl
    | shared buffer =>
      rw [coalesce, List.filterMap_cons, List.filterMap_cons, ih]

end Segment

/-- The bytes of a packet are its own ones and those of its shared buffers. -/
lemma Packet.length_eq (packet : Packet) : packet.length =
    packet.ownedLength + (packet.buffers.map fun buffer => buffer.bytes.length).sum := by
  rw [length, ownedLength, buffers]
  induction packet.segments with
  | nil => rfl
  | cons s segments ih =>
    simp only [Segment.totalLength, List.map_cons, List.sum_cons] at ih ⊢
    rw [ih]
    cases s with
    | owned bytes => exact (Nat.add_assoc ..).symm
    | shared buffer => exact Nat.add_left_comm ..

lemma Extension.filterMap_segments {x : Extension} {more : Bool} {encoded : Encoded}
    (h : x.encode more = .ok encoded) :
    encoded.segments.filterMap Segment.buffer? = x.buffer?.toList := by
  cases x with
  | antennaMask | regularization | spectrumSharing | weightBundles =>
    simp only [encode, bind_eq_ok, pure_eq_ok] at h
    obtain ⟨_, -, rfl⟩ := h
    rfl
  | beamWeights | beamAttributes | precoding | modulationScaling | modulationSets | prbGroups
  | beamGroup =>
    simp only [encode, bind_eq_ok, pure_eq_ok] at h
    obtain ⟨_, -, _, -, rfl⟩ := h
    rfl

/-! ## Messages -/

namespace Message

variable {m : Message} {mu : Numerology} {tagging : IdTagging} {segments : List Segment}

lemma filterMap_encodeChain {extensions : List Extension}
    (h : encodeChain extensions = .ok segments) :
    segments.filterMap Segment.buffer? = extensions.filterMap Extension.buffer? := by
  induction extensions generalizing segments with
  | nil =>
    obtain rfl := pure_eq_ok.mp h
    rfl
  | cons x extensions ih =>
    simp only [encodeChain, bind_eq_ok, pure_eq_ok] at h
    obtain ⟨encoded, hencoded, rest, hrest, rfl⟩ := h
    rw [List.filterMap_append, Extension.filterMap_segments hencoded, ih hrest,
      List.filterMap_cons]
    cases x.buffer? with
    | none => rfl
    | some buffer => rfl

/-- A packet refers to the shared buffers of its message, in their order. -/
lemma filterMap_segments (h : m.segments mu tagging = .ok segments) :
    segments.filterMap Segment.buffer? = m.buffers := by
  simp only [Message.segments, bind_eq_ok, pure_eq_ok] at h
  obtain ⟨header, -, parts, hparts, rfl⟩ := h
  rw [Segment.filterMap_coalesce, List.filterMap_cons_none rfl, buffers]
  rw [mapM_eq_ok] at hparts
  generalize m.sections = sections at hparts ⊢
  induction hparts with
  | nil => rfl
  | @cons s part sections parts hpart _ ih =>
    simp only [encodeSection, bind_eq_ok, pure_eq_ok] at hpart
    obtain ⟨wireId, -, body, -, chain, hchain, rfl⟩ := hpart
    rw [List.flatten_cons, List.filterMap_append, List.filterMap_cons_none rfl,
      filterMap_encodeChain hchain, List.flatMap_cons, ih]

/-- The shared buffer of the bundles that close a message. -/
def closing? (m : Message) : Option SharedBuffer :=
  m.sections.getLast?.bind fun s => s.extensions.getLast?.bind Extension.buffer?

lemma filterMap_eq_nil_of_any {extensions : List Extension}
    (h : extensions.any Extension.isBundles = false) :
    extensions.filterMap Extension.buffer? = [] := by
  rw [List.any_eq_false] at h
  exact List.filterMap_eq_nil_iff.mpr fun x hx => Option.not_isSome_iff_eq_none.mp (h x hx)

lemma filterMap_of_dropLast {extensions : List Extension}
    (h : extensions.dropLast.any Extension.isBundles = false) :
    extensions.filterMap Extension.buffer? =
      (extensions.getLast?.bind Extension.buffer?).toList := by
  rcases List.eq_nil_or_concat' extensions with rfl | ⟨front, x, rfl⟩
  · rfl
  · rw [List.dropLast_concat] at h
    rw [List.filterMap_append, filterMap_eq_nil_of_any h, List.getLast?_concat, Option.bind_some,
      List.nil_append, List.filterMap_cons]
    cases x.buffer? with
    | none => rfl
    | some buffer => rfl

/-- Of a message that is in order, no more than the last extension refers to a shared buffer. -/
lemma buffers_eq (h : m.validate = .ok ()) : m.buffers = m.closing?.toList := by
  simp only [validate, guard_eq_ok] at h
  obtain ⟨-, -, h⟩ := h
  rw [buffers, closing?]
  generalize m.sections = sections at h ⊢
  induction sections with
  | nil => rfl
  | cons s sections ih =>
    simp only [checkExtensions, guard_eq_ok, Bool.not_eq_true] at h
    obtain ⟨-, hinner, hrest⟩ := h
    cases sections with
    | nil =>
      rw [List.flatMap_singleton, List.getLast?_singleton, Option.bind_some]
      exact filterMap_of_dropLast hinner
    | cons s' sections =>
      have hinner : s.extensions.any Extension.isBundles = false := hinner
      rw [List.flatMap_cons, List.getLast?_cons_cons, filterMap_eq_nil_of_any hinner,
        List.nil_append, ih hrest]

/-- The packet of a message refers to the buffer that closes the message, if one does. -/
lemma buffers_of_run_encode {memory after : Memory} {packet : Packet}
    (h : (m.encode mu tagging).run memory = (.ok packet, after)) :
    packet.buffers = m.closing?.toList := by
  obtain ⟨hvalid, hsegments⟩ := run_encode_eq_ok h
  rw [Packet.buffers, filterMap_segments hsegments, buffers_eq hvalid]

end Message

namespace Producer

variable {p after : Producer} {o : Order}

/-! ## Elements -/

lemma IsFramed.length_buffers_le {settings : ProducerSettings} {sequence : UInt8} {e : PrbElement}
    {index : ℕ} {packet : Packet} (h : IsFramed settings o sequence e index packet) :
    packet.buffers.length ≤ 1 := by
  obtain ⟨start, count, m, segments, pooled, -, -, hvalid, hsegments, hheader⟩ := h
  simp only [addHeader, bind_eq_ok, check_eq_ok, pure_eq_ok] at hheader
  obtain ⟨header, -, -, rfl⟩ := hheader
  have hbuffers : (Packet.prepend ⟨segments, pooled⟩ header).buffers = m.closing?.toList :=
    (Message.filterMap_segments hsegments).trans (Message.buffers_eq hvalid)
  rw [hbuffers]
  cases m.closing? with
  | none => exact Nat.zero_le 1
  | some buffer => exact le_rfl

/-- The packet of an element is all that is held for it, and nothing is held after a failure. -/
lemma holds_buildElement {index : ℕ} {e : PrbElement} {result : Except Error (Option Packet)}
    (h : (buildElement o index e).run p = (result, after)) :
    p.memory.Holds after.memory (result.toOption.getD none).toList := by
  have hends := ends_buildElement p o index e
  rw [h] at hends
  cases hends with
  | skipped => exact .refl p.memory
  | unnumbered _ hheld => exact hheld
  | numbered _ hheld => exact hheld
  | sent _ _ _ _ hheld => exact hheld

/-! ## Maps -/

/-- The packets of elements are all that is held for them, and nothing is held after a failure.  By
induction on the elements: when a later one fails, the packet of the first one is dropped. -/
lemma holds_buildElements {index : ℕ} {elements : List PrbElement}
    {result : Except Error (List Packet)}
    (h : (buildElements o index elements).run p = (result, after)) :
    p.memory.Holds after.memory (result.toOption.getD []) := by
  induction elements generalizing index p result after with
  | nil =>
    cases h
    exact .refl _
  | cons e elements ih =>
    rw [run_buildElements_cons] at h
    rcases helement : (buildElement o index e).run p with ⟨err | packet?, next⟩
    · rw [helement] at h
      cases h
      exact holds_buildElement helement
    rw [helement] at h
    have hnext := holds_buildElement helement
    dsimp only at h
    rcases hrest : (buildElements o (index + 1) elements).run next with ⟨err | packets, last⟩
    · rw [hrest] at h
      cases h
      exact (hnext.trans (ih hrest)).dropAll
    · rw [hrest] at h
      cases h
      exact hnext.trans (ih hrest)

/-- Nothing is lost when a message is written or a map is built.  After a failure as many slots are
in use and every buffer has as many holders as before.  The packet of a message holds one slot and
one reference to the buffer that closes the message, if one does, and its other bytes are its own;
the packets of a map hold one slot and at most one reference each.  When they are dropped again,
everything is as before. -/
theorem no_leak :
    (∀ (m : Message) (mu : Numerology) (tagging : IdTagging) (memory after : Memory),
      (∀ e, (m.encode mu tagging).run memory = (.error e, after) → memory.SameHoldings after) ∧
      ∀ packet, (m.encode mu tagging).run memory = (.ok packet, after) →
        memory.Holds after [packet] ∧ packet.buffers = m.closing?.toList ∧
          packet.ownedLength =
            packet.length - (m.closing?.map fun buffer => buffer.bytes.length).getD 0 ∧
          memory.SameHoldings (after.drop packet)) ∧
    ∀ (o : Order) (map : PrbMap) (p after : Producer),
      (∀ e, (buildMap o map).run p = (.error e, after) → p.memory.SameHoldings after.memory) ∧
      ∀ packets, (buildMap o map).run p = (.ok packets, after) →
        p.memory.Holds after.memory packets ∧ (∀ packet ∈ packets, packet.buffers.length ≤ 1) ∧
          p.memory.SameHoldings (after.memory.dropAll packets) := by
  refine ⟨fun m mu tagging memory after => ⟨fun e h => ?_, fun packet h => ?_⟩,
    fun o map p after => ⟨fun e h => ?_, fun packets h => ?_⟩⟩
  · exact (Message.holds_of_run_encode_error h).same
  · have hheld := Message.holds_of_run_encode h
    have hbuffers := Message.buffers_of_run_encode h
    refine ⟨hheld, hbuffers, ?_, hheld.drop.same⟩
    rw [packet.length_eq, hbuffers]
    cases m.closing? with
    | none => rfl
    | some buffer => exact (Nat.add_sub_cancel ..).symm
  · exact (holds_buildElements h).same
  · have hheld : p.memory.Holds after.memory packets := holds_buildElements h
    obtain ⟨-, hframed⟩ := run_buildMap_traces h
    refine ⟨hheld, fun packet hpacket => ?_, ?_⟩
    · obtain ⟨x, -, hx⟩ := exists_of_mem_right hframed hpacket
      exact hx.length_buffers_le
    · rw [← List.append_nil packets] at hheld
      exact hheld.dropAll.same

namespace SmallPool

open BadBeam (producer order map)

/-- A pool with some slots, and no references. -/
def memory (slots : ℕ) : Memory where
  pool := some { capacity := slots }

/-- A shared buffer of three bytes. -/
def payload : SharedBuffer := ⟨7, [1, 2, 3]⟩

/-- A message that the buffer closes. -/
def message : Message where
  direction := .dl
  type := .regular
  header := {}
  sections :=
    [.create { numPrb := 10, numSymbols := 14 } [.weightBundles
      { bundlePrbs := 1, method := .none, width := 16, count := 1, payload }]]

lemma holders_memory (slots : ℕ) : (memory slots).holders payload = 0 := by
  simp [memory, Memory.holders, Memory.account]

/-- A message takes the last slot and one reference until it is dropped, and nothing when there is
no slot left.  A map whose second element fails leaves no slot of the two taken, and a map of its
first element one. -/
theorem no_leak_smallPool :
    (∃ packet after, (message.encode .khz30 .untagged).run (memory 1) = (.ok packet, after) ∧
      after.inUse = some 1 ∧ after.holders payload = 1 ∧ packet.ownedLength = packet.length - 3 ∧
      (after.drop packet).inUse = some 0 ∧ (after.drop packet).holders payload = 0) ∧
    (∃ e after, (message.encode .khz30 .untagged).run (memory 0) = (.error e, after) ∧
      after.inUse = some 0) ∧
    (∃ e after, (buildMap order map).run { producer with memory := memory 2 } = (.error e, after) ∧
      after.memory.inUse = some 0) ∧
    ∃ packets after, (buildMap order { map with elements := map.elements.take 1 }).run
        { producer with memory := memory 2 } = (.ok packets, after) ∧
      after.memory.inUse = some packets.length := by
  obtain ⟨hmessages, hmaps⟩ := no_leak
  have hwritten : ((message.encode .khz30 .untagged).run (memory 1)).1.isOk = true := by
    decide +kernel
  have hexhausted : ((message.encode .khz30 .untagged).run (memory 0)).1.isOk = false := by
    decide +kernel
  have hfailed :
      ((buildMap order map).run { producer with memory := memory 2 }).1.isOk = false := by
    decide +kernel
  have hbuilt : ((buildMap order { map with elements := map.elements.take 1 }).run
      { producer with memory := memory 2 }).1.isOk = true := by
    decide +kernel
  refine ⟨?_, ?_, ?_, ?_⟩
  · obtain ⟨packet, after, hrun⟩ := exists_run_eq_ok hwritten
    obtain ⟨hheld, hbuffers, howned, hdropped⟩ :=
      (hmessages message .khz30 .untagged (memory 1) after).2 packet hrun
    refine ⟨packet, after, hrun, hheld.inUse, ?_, howned, hdropped.inUse, ?_⟩
    · rw [hheld.holders, holders_memory, List.flatMap_singleton, hbuffers]
      rfl
    · rw [hdropped.holders, holders_memory]
  · obtain ⟨e, after, hrun⟩ := exists_run_eq_error hexhausted
    exact ⟨e, after, hrun, ((hmessages _ _ _ _ after).1 e hrun).inUse⟩
  · obtain ⟨e, after, hrun⟩ := exists_run_eq_error hfailed
    exact ⟨e, after, hrun, ((hmaps _ _ _ after).1 e hrun).inUse⟩
  · obtain ⟨packets, after, hrun⟩ := exists_run_eq_ok hbuilt
    obtain ⟨hheld, -, -⟩ := (hmaps _ _ _ after).2 packets hrun
    exact ⟨packets, after, hrun, hheld.inUse.trans (congrArg some (Nat.zero_add _))⟩

end SmallPool

end Producer

end OpenFronthaul
