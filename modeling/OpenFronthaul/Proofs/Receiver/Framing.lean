import OpenFronthaul.Proofs.Extension.Framing
import OpenFronthaul.Proofs.Message.Section
import OpenFronthaul.Proofs.Receiver.Reading

/-!
# A message is decided on by its own bytes

Every part of a message is read from bytes of its own, whatever the receiver knows of the flow.  So
there is a place in every packet with a message up to which the receiver has to look: what stands
behind it makes no difference, and a packet that ends before it is malformed
(`exists_deciding_prefix`).
-/

namespace OpenFronthaul.Receiver

open Extension

variable {α : Type} {c : FlowContext}

/-! ## Chains of extensions -/

/-- By induction on the room: behind the first extension the chain is over, or goes on. -/
lemma framed_chain (room : ℕ) : Framed (chain c room) := by
  induction room with
  | zero => exact framed_error _
  | succ room ih =>
    have hnext : ∀ d : Decoded, Framed fun rest =>
        if d.more then do
          let x ← chain c room rest
          return (d.extension :: x.1, x.2)
        else return ([d.extension], rest) := by
      intro d
      by_cases hmore : d.more = true
      · simp only [hmore, if_true]
        exact ih.bind fun extensions => framed_pure _
      · simp only [hmore]
        exact framed_pure _
    refine ((framed_decode c.weights).bind hnext).congr fun data => ?_
    rw [chain]
    rcases Extension.decode data c.weights with e | d
    · rfl
    · rfl

/-- The start of a block that is all there. -/
def openBlock (data : Bytes) : Except Error Opening := do
  let opening ← Opening.parse data
  if data.length < opening.length then throw .chainPastEnd
  return opening

lemma framed_openBlock :
    Framed fun data => do let opening ← openBlock data; return (opening, data.drop opening.length) := by
  refine framed_drop _ fun data opening h => ?_
  simp only [openBlock, bind_eq_ok, check_eq_ok, pure_eq_ok] at h
  obtain ⟨opening, hopening, hlong, rfl⟩ := h
  rw [not_lt] at hlong
  refine ⟨hlong, decides_block hopening hlong (fun rest => ?_) (fun cut hcut hshort => ?_)
    fun cut e hcut => ?_⟩
  · have hblock := Opening.parse_append (Opening.parse_take_length hopening hlong) rest
    rw [openBlock, hblock, ok_bind, if_neg]
    · rfl
    · rw [List.length_append, List.length_take]
      omega
  · refine ⟨.chainPastEnd, ?_, rfl⟩
    rw [openBlock, hcut, ok_bind, if_pos hshort]
    rfl
  · rw [openBlock, hcut]
    rfl

lemma skipChain_succ (room : ℕ) (data : Bytes) : skipChain (room + 1) data = do
    let opening ← openBlock data
    if opening.more then skipChain room (data.drop opening.length)
    else return data.drop opening.length := by
  rw [skipChain, openBlock]
  rcases Opening.parse data with e | opening
  · rfl
  · simp only [ok_bind]
    by_cases hshort : data.length < opening.length
    · rw [if_pos hshort, if_pos hshort]
      rfl
    · rw [if_neg hshort, if_neg hshort, pure_bind]

/-- By induction on the room, as for a chain that is read. -/
lemma framed_skipChain (a : α) (room : ℕ) :
    Framed fun data => do return (a, ← skipChain room data) := by
  induction room with
  | zero => exact framed_error _
  | succ room ih =>
    have hnext : ∀ opening : Opening, Framed fun rest =>
        if opening.more then do return (a, ← skipChain room rest) else return (a, rest) := by
      intro opening
      by_cases hmore : opening.more = true
      · simp only [hmore, if_true]
        exact ih
      · simp only [hmore]
        exact framed_pure _
    refine (framed_openBlock.bind hnext).congr fun data => ?_
    rw [skipChain_succ]
    rcases openBlock data with e | opening
    · rfl
    · simp only [ok_bind]
      split_ifs with hmore
      · simp [hmore]
      · simp [hmore]

lemma framed_extensions (extended : Bool) : Framed (extensions c extended) := by
  unfold extensions
  split_ifs
  · exact framed_pure _
  · exact framed_skipChain _ _
  · exact framed_chain _

/-! ## Sections -/

/-- The fixed part of a section has one length for all sections of a type. -/
lemma framed_wireSection (type : SectionType) : Framed fun data => do
    let wire ← WireSection.parse data type; return (wire, data.drop type.sectionLength) := by
  refine framed_drop (fun _ => type.sectionLength) fun data wire h => ?_
  obtain ⟨hlong, rfl⟩ := WireSection.parse_eq_ok.mp h
  refine ⟨hlong, fun rest => ?_, fun n hn => ?_⟩
  · have hnumber : ∀ start count, start + count ≤ type.sectionLength →
        numberAt (data.take type.sectionLength ++ rest) start count = numberAt data start count := by
      intro start count hle
      rw [numberAt_append_left (by rw [List.length_take]; omega), numberAt_take hle]
    refine WireSection.parse_eq_ok.mpr ⟨by rw [List.length_append, List.length_take]; omega, ?_⟩
    rw [hnumber 0 8 (by cases type <;> decide)]
    by_cases htype : type = .mixed
    · rw [hnumber 8 3 (by rw [htype]; decide)]
    · simp only [htype, if_false]
  · refine ⟨.truncated .sectionBody, ?_, rfl⟩
    rw [WireSection.parse, if_pos]
    · rfl
    · rw [List.length_take] at hn ⊢
      omega

lemma framed_body (parsed : MessageHeader.Parsed) (index : ℕ) :
    Framed (body c parsed index) := by
  have hnext : ∀ wire : WireSection, Framed fun data => do
      let info ← c.applyMap index (c.interpret parsed.header parsed.type wire)
      let x ← extensions c wire.extended data
      return ((⟨info, x.1⟩ : ExtendedSection), x.2) := by
    intro wire
    -- the map knows nothing of the data
    rcases c.applyMap index (c.interpret parsed.header parsed.type wire) with e | info
    · exact framed_error e
    · exact (framed_extensions wire.extended).bind fun _ => framed_pure _
  refine ((framed_wireSection parsed.type).bind hnext).congr fun data => ?_
  rw [body]
  rcases WireSection.parse data parsed.type with e | wire
  · rfl
  · rfl

/-! ## Messages -/

/-- By induction on the number of sections; what follows the last one is not looked at. -/
lemma settled_bodies (parsed : MessageHeader.Parsed) (count index : ℕ) :
    Settled (bodies c parsed count index) := by
  induction count generalizing index with
  | zero => exact settled_pure []
  | succ count ih =>
    have hread := (framed_body (c := c) parsed index).settled fun s => (ih (index + 1)).map (s :: ·)
    exact hread

/-- How long a header is follows from the type of the sections in it. -/
lemma framed_header : Framed fun data =>
    acceptHeader data >>= fun parsed => .ok (parsed, data.drop parsed.type.headerLength) := by
  refine framed_drop (fun parsed : MessageHeader.Parsed => parsed.type.headerLength)
    fun data parsed h => ?_
  obtain ⟨hparse, hpos, hle⟩ := acceptHeader_eq_ok.mp h
  have hlong := MessageHeader.headerLength_le_length hparse
  have hlength : (data.take parsed.type.headerLength).length = parsed.type.headerLength := by
    rw [List.length_take]
    omega
  refine ⟨hlong, fun rest => ?_, fun n hn => ?_⟩
  · rw [← List.take_append_drop parsed.type.headerLength data] at hparse
    exact acceptHeader_eq_ok.mpr ⟨MessageHeader.parse_append hlength hparse rest, hpos, hle⟩
  · rw [hlength] at hn
    obtain ⟨e, he, hkind⟩ := MessageHeader.kind_of_parse_take hparse hn
    refine ⟨e, ?_, hkind⟩
    rw [acceptHeader, List.take_take, Nat.min_eq_left hn.le, he]
    rfl

lemma settled_message : Settled (message c) := by
  have hread := framed_header.settled fun parsed =>
    (settled_bodies (c := c) parsed parsed.sections 0).map
      (Message.mk parsed.direction parsed.type parsed.header)
  refine hread.congr fun data => ?_
  rw [message]
  rcases acceptHeader data with e | parsed
  · rfl
  · rfl

/-- A packet with a message has a prefix that decides on it: the message does not depend on what
stands behind the prefix, and whatever ends within the prefix is malformed. -/
theorem exists_deciding_prefix {data : Bytes} {counts : ReceiveCounts} {m : Message}
    (h : (parse c data counts).1 = .ok m) :
    ∃ n ≤ data.length,
      (∀ other counts, data.take n <+: other → (parse c other counts).1 = .ok m) ∧
      ∀ k < n, ∀ counts, ∃ e, (parse c (data.take k) counts).1 = .error e ∧
        e.kind = .invalidPacket := by
  simp only [parse_eq_message] at h ⊢
  obtain ⟨used, tail, rfl, hdecides⟩ := settled_message data m h
  refine ⟨used.length, by rw [List.length_append]; omega, ?_, ?_⟩
  · rintro other - ⟨rest, rfl⟩
    rw [List.take_left]
    exact hdecides.append rest
  · intro k hk _
    rw [List.take_append_of_le_length hk.le]
    exact hdecides.take k hk

/-- A flow of sounding reference signals with one element in the map of the slot. -/
def soundingFlow : FlowContext where
  mu := .khz30
  carrier := 0
  antenna := 4
  map := some ⟨.ul, [{ startPrb := 12, numPrb := 24 }]⟩
  sounding := some ⟨4, 8⟩

/-- One section with a modulation scaling that is stepped over, and two bytes behind it. -/
def soundingPacket : Bytes :=
  [0x10, 9, 0x00, 0x40, 1, 1, 0x91, 0, 0, 0x10, 0, 8, 0xff, 0xf1, 0x80, 5, 4, 1, 0x80, 0x12, 7, 7]

/-- What decides on a section whose extension is only stepped over. -/
theorem exists_deciding_prefix_sounding :
    ∃ m, (parse soundingFlow soundingPacket {}).1 = .ok m ∧
      ∃ n ≤ soundingPacket.length,
        (∀ other counts, soundingPacket.take n <+: other →
          (parse soundingFlow other counts).1 = .ok m) ∧
        ∀ k < n, ∀ counts, ∃ e,
          (parse soundingFlow (soundingPacket.take k) counts).1 = .error e ∧
            e.kind = .invalidPacket := by
  obtain ⟨m, hm⟩ : ∃ m, (parse soundingFlow soundingPacket {}).1 = .ok m := ⟨_, rfl⟩
  exact ⟨m, hm, exists_deciding_prefix hm⟩

end OpenFronthaul.Receiver
