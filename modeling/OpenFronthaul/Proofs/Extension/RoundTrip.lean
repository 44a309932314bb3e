import OpenFronthaul.Extension.Basic
import OpenFronthaul.Proofs.Extension.Contents
import OpenFronthaul.Proofs.Extension.PackedContents

/-!
# Extensions are read as they are written

An extension that was written is given back by a reader that finds the ends of its weights, and the
reader agrees with the announced length (`decode_encode`).  Neither the number of weights in a
vector nor the length of a buffer with bundles is on the wire, so both must be what the reader takes
them to be (`Extension.Delimited`): for a reader that knows the number of weights, a vector must have
that number and a buffer exactly the bytes of its bundles (`Extension.Sized`).
-/

namespace OpenFronthaul

open Extension

/-! ## Bundles of weights -/

namespace WeightBundles

/-- The buffer has exactly the bytes of the bundles, each with the given number of weights. -/
def Exact (e : WeightBundles) (weights : ℕ) : Prop :=
  if e.beamsOnly then e.payload.bytes.length = e.count.toNat * 2
  else ∃ length, bundleLength weights e.width e.method = .ok length ∧
    e.payload.bytes.length = e.count.toNat * length

/-- The bundles as a receiver knows them: the buffer belongs to no application. -/
def received (e : WeightBundles) : WeightBundles :=
  { e with payload := ⟨0, e.payload.bytes⟩ }

/-- A reader of the extension takes the whole buffer for bundles, and nothing behind it. -/
def Delimited (e : WeightBundles) (weights : Option UInt16) : Prop :=
  e.payloadLength (alignUp (headerLength + e.payload.bytes.length) wordLength - headerLength)
    weights = .ok e.payload.bytes.length

lemma Exact.delimited {e : WeightBundles} {weights : UInt16} (h : e.Exact weights.toNat) :
    e.Delimited (some weights) := by
  unfold Exact at h
  unfold Delimited payloadLength
  split_ifs at h ⊢ with hbeams
  · rw [h]
    rfl
  · obtain ⟨length, hlength, hpayload⟩ := h
    rw [hpayload]
    dsimp only
    rw [hlength]
    rfl

/-- The two flags of the bundles share a byte. -/
lemma toNat_flags (beamsOnly resetAfter : Bool) :
    (UInt8.ofNat (beamsOnly.toNat * 128 + resetAfter.toNat * 64)).toNat =
      beamsOnly.toNat * 128 + resetAfter.toNat * 64 := by
  cases beamsOnly <;> cases resetAfter <;> rfl

lemma decide_flags (beamsOnly resetAfter : Bool) :
    decide (128 ≤ beamsOnly.toNat * 128 + resetAfter.toNat * 64) = beamsOnly ∧
      decide (64 ≤ (beamsOnly.toNat * 128 + resetAfter.toNat * 64) % 128) = resetAfter := by
  cases beamsOnly <;> cases resetAfter <;> decide

/-- The parts of an extension with bundles, and its length in words. -/
lemma encodeHeader_eq_ok {e : WeightBundles} {more : Bool} {header : Bytes} {zeros : ℕ}
    (h : e.encodeHeader more = .ok (header, zeros)) :
    ∃ words, 0 < words ∧ words ≤ 65535 ∧
      headerLength + e.payload.bytes.length + zeros = words * wordLength ∧ zeros ≤ 3 ∧
      WeightCompression.checkWidth e.width = .ok () ∧
      header = typeByte .weightBundles more :: (Bytes.ofNat 2 words
        ++ (UInt8.ofNat (e.beamsOnly.toNat * 128 + e.resetAfter.toNat * 64) :: e.bundlePrbs
          :: e.method.header e.width :: Bytes.ofNat 2 e.count.toNat)) := by
  simp only [encodeHeader, bind_eq_ok, check_eq_ok, pure_eq_ok, Prod.mk.injEq] at h
  obtain ⟨_, hwidth, hwords, rfl, rfl⟩ := h
  have htotal := alignUp_wordLength (headerLength + e.payload.bytes.length)
  refine ⟨_, ?_, Nat.le_of_not_lt hwords, ?_, ?_, hwidth, by simp⟩
  · rw [htotal, wordLength, headerLength]
    omega
  · rw [htotal, wordLength]
    omega
  · rw [htotal]
    omega

/-- Bundles are read as they were written. -/
lemma parse_encodeHeader {e : WeightBundles} {more : Bool} {header : Bytes} {zeros : ℕ}
    {weights : Option UInt16} (h : e.encodeHeader more = .ok (header, zeros))
    (hdelimited : e.Delimited weights) (rest : Bytes) :
    parse (header ++ (e.payload.bytes ++ (Bytes.zeros zeros ++ rest)))
      (header.length + e.payload.bytes.length + zeros) weights =
        .ok (e.received, header.length + e.payload.bytes.length + zeros) := by
  obtain ⟨words, hpos, hle, htotal, hzeros, hwidth, rfl⟩ := encodeHeader_eq_ok h
  obtain ⟨hbeams, hreset⟩ := decide_flags e.beamsOnly e.resetAfter
  -- the fields are looked up by place, so the bytes are named and each place is read off them
  generalize hdata : typeByte .weightBundles more :: (Bytes.ofNat 2 words
    ++ (UInt8.ofNat (e.beamsOnly.toNat * 128 + e.resetAfter.toNat * 64) :: e.bundlePrbs
      :: e.method.header e.width :: Bytes.ofNat 2 e.count.toNat))
        ++ (e.payload.bytes ++ (Bytes.zeros zeros ++ rest)) = data
  have hlength : data.length = words * wordLength + rest.length := by
    rw [← hdata]
    simp only [List.length_append, List.length_cons, Bytes.length_ofNat, Bytes.length_zeros,
      headerLength] at htotal ⊢
    omega
  have hdrop : data.drop headerLength = e.payload.bytes ++ (Bytes.zeros zeros ++ rest) := by
    rw [← hdata]
    rfl
  have hcount : numberAt data 6 2 = e.count.toNat % 256 ^ 2 := by
    rw [← hdata]
    exact numberAt_ofNat e.count.toNat
  have hflags : byteAt data 3 = e.beamsOnly.toNat * 128 + e.resetAfter.toNat * 64 := by
    rw [← hdata]
    exact toNat_flags e.beamsOnly e.resetAfter
  have hprbs : byteAt data 4 = e.bundlePrbs.toNat := by
    rw [← hdata]
    rfl
  have hhead : byteAt data 5 = (e.method.header e.width).toNat := by
    rw [← hdata]
    rfl
  have htotal' : (typeByte .weightBundles more :: (Bytes.ofNat 2 words
      ++ (UInt8.ofNat (e.beamsOnly.toNat * 128 + e.resetAfter.toNat * 64) :: e.bundlePrbs
        :: e.method.header e.width :: Bytes.ofNat 2 e.count.toNat))).length
          + e.payload.bytes.length + zeros = words * wordLength := htotal
  have hlong : headerLength ≤ words * wordLength := by omega
  have halign : alignUp (headerLength + e.payload.bytes.length) wordLength =
      words * wordLength := by
    rw [alignUp_wordLength]
    unfold wordLength at htotal ⊢
    omega
  rw [htotal', parse, require_of_le (by omega), ok_bind, if_neg (by omega), hflags, hprbs, hhead,
    hcount]
  dsimp only
  rw [WeightCompression.ofHeader_header, ok_bind, WeightCompression.ofWire_header hwidth, hbeams,
    hreset, UInt8.ofNat_toNat, ofNat_toNat_mod]
  rw [Delimited, halign] at hdelimited
  have htaken : payloadLength { e with payload := ⟨0, []⟩ } (words * wordLength - headerLength)
      weights = .ok e.payload.bytes.length := hdelimited
  rw [htaken, ok_bind, if_neg (by omega), hdrop, List.take_left, halign]
  rfl

end WeightBundles

/-! ## All kinds -/

namespace Extension

/-- What a receiver that knows the number of weights in a vector relies on. -/
def Sized (weights : ℕ) : Extension → Prop
  | beamWeights v => v.weights.length = weights
  | weightBundles b => b.Exact weights
  | _ => True

/-- What a receiver relies on that knows the number of weights in a vector, or does not. -/
def Delimited (weights : Option UInt16) : Extension → Prop
  | beamWeights v => ∃ count, weights = some count ∧ v.weights.length = count.toNat
  | weightBundles b => b.Delimited weights
  | _ => True

/-- A receiver finds the end of an extension whatever length is announced for it. -/
def Closed (weights : Option UInt16) : Extension → Prop
  | precoding _ | modulationSets _ => False
  | weightBundles b => b.Delimited weights ∧ (b.beamsOnly = true ∨ weights.isSome = true)
  | e => e.Delimited weights

lemma Closed.delimited {weights : Option UInt16} {e : Extension} (h : e.Closed weights) :
    e.Delimited weights := by
  cases e with
  | precoding _ | modulationSets _ => exact h.elim
  | weightBundles b => exact h.1
  | _ => exact h

lemma Sized.delimited {weights : UInt16} {e : Extension} (h : e.Sized weights.toNat) :
    e.Delimited (some weights) := by
  cases e with
  | beamWeights v => exact ⟨weights, rfl, h⟩
  | weightBundles b => exact WeightBundles.Exact.delimited h
  | _ => trivial

/-- An extension as a receiver knows it. -/
def received : Extension → Extension
  | weightBundles b => weightBundles b.received
  | e => e

/-- The bytes of an extension. -/
def Encoded.wire (encoded : Encoded) : Bytes :=
  encoded.segments.flatMap Segment.bytes

/-- The contents of an extension, for bundles those of the fixed part behind its length. -/
def contents : Extension → Except Error Bytes
  | beamWeights v => v.encodeBody
  | beamAttributes a => a.encodeBody
  | precoding p => p.encodeBody
  | modulationScaling m => m.encodeBody
  | modulationSets s => ModulationSet.encodeBody s
  | prbGroups g => g.encodeBody
  | antennaMask m => .ok (AntennaMask.encodeBody m)
  | regularization f => .ok (Regularization.encodeBody f)
  | spectrumSharing t => .ok t.encodeBody
  | beamGroup g => g.encodeBody
  | weightBundles b =>
    .ok (UInt8.ofNat (b.beamsOnly.toNat * 128 + b.resetAfter.toNat * 64) :: b.bundlePrbs ::
      b.method.header b.width :: Bytes.ofNat 2 b.count.toNat)

lemma encode_of_short {e : Extension} (h : e.isBundles = false) (more : Bool) :
    e.encode more = do return .inline (← e.contents >>= block e.kind more) := by
  cases e with
  | weightBundles b => cases h
  | _ =>
    simp only [encode, contents, bind_assoc, ok_bind]
    rfl

lemma kind_of_short {e : Extension} (h : e.isBundles = false) :
    e.kind ≠ .weightBundles ∧ e.kind.lengthFieldSize = 1 := by
  cases e with
  | weightBundles b => cases h
  | _ => exact ⟨nofun, rfl⟩

lemma received_of_short {e : Extension} (h : e.isBundles = false) : e.received = e := by
  cases e with
  | weightBundles b => cases h
  | _ => rfl

/-- The contents of a short extension are read from in front of the bytes that fill its block, which
may be any number of words where the length of the block does not matter. -/
lemma parseBody_contents {e : Extension} {contents fill : Bytes} {length : ℕ}
    {weights : Option UInt16} (h : e.contents = .ok contents) (hshort : e.isBundles = false)
    (hdelimited : e.Delimited weights) (hlength : (contents ++ fill).length + 2 = length)
    (htwo : 2 ≤ (contents ++ fill).length)
    (hcloses : e.Closed weights ∨ length = blockLength contents.length) :
    parseBody e.kind (contents ++ fill) length weights =
      .ok (e, blockLength contents.length) := by
  cases e with
  | beamWeights v =>
    obtain ⟨count, rfl, hcount⟩ := hdelimited
    rw [kind, parseBody, WeightVector.parseBody_append h hcount]
    rfl
  | beamAttributes a =>
    rw [kind, parseBody, BeamAttributes.parseBody_append h]
    rfl
  | precoding p =>
    -- the number of layers is told by the length alone
    obtain rfl := hcloses.resolve_left id
    obtain ⟨hparse, hwire⟩ := Precoding.parseBody_append fill h
    rw [kind, parseBody, hparse, ← hwire]
    rfl
  | modulationScaling m =>
    rw [kind, parseBody, ModulationScaling.parseBody_append fill h, blockLength_eq,
      ModulationScaling.length_encodeBody h]
    rfl
  | modulationSets sets =>
    -- and so is the number of sets
    obtain rfl := hcloses.resolve_left id
    obtain ⟨hparse, hwire⟩ := ModulationSet.parseBody_append h hlength
    rw [kind, parseBody, hparse, ← hwire]
    rfl
  | prbGroups g =>
    rw [kind, parseBody, PrbGroups.parseBody_append fill h, blockLength_eq,
      PrbGroups.length_encodeBody h]
    rfl
  | antennaMask mask =>
    obtain rfl := Except.ok.inj h
    rw [kind, parseBody, AntennaMask.parseBody_append, blockLength_eq, AntennaMask.encodeBody,
      Bytes.length_ofNat]
    rfl
  | regularization factor =>
    obtain rfl := Except.ok.inj h
    rw [kind, parseBody, Regularization.parseBody_append, blockLength_eq,
      Regularization.encodeBody, Bytes.length_ofNat]
    rfl
  | spectrumSharing technology =>
    obtain rfl := Except.ok.inj h
    rw [kind, parseBody, Technology.parseBody_append, blockLength_eq, Technology.encodeBody,
      List.length_cons, List.length_singleton]
    rfl
  | beamGroup g =>
    rw [kind, parseBody, BeamGroup.parseBody_append fill h htwo]
    rfl
  | weightBundles b => cases hshort

/-- A short extension is read from a block with its contents in front. -/
lemma decode_contents {e : Extension} {more : Bool} {contents fill : Bytes} {words : ℕ}
    {weights : Option UInt16} (h : e.contents = .ok contents) (hshort : e.isBundles = false)
    (hdelimited : e.Delimited weights)
    (hlength : (contents ++ fill).length + 2 = words * wordLength) (hwords : words ≤ 255)
    (hcloses : e.Closed weights ∨ words * wordLength = blockLength contents.length)
    (rest : Bytes) :
    decode (typeByte e.kind more :: UInt8.ofNat words :: (contents ++ fill ++ rest)) weights =
      .ok ⟨e, more, words * wordLength, blockLength contents.length⟩ := by
  obtain ⟨hkind, hsize⟩ := kind_of_short hshort
  have hpos : 0 < words := by
    rcases Nat.eq_zero_or_pos words with rfl | hpos
    · omega
    · exact hpos
  have htwo : 2 ≤ (contents ++ fill).length := by
    unfold wordLength at hlength
    omega
  have hopening : Opening.parse
      (typeByte e.kind more :: UInt8.ofNat words :: (contents ++ fill ++ rest)) =
        .ok ⟨more, e.kind, words * wordLength, 2⟩ := by
    have hparse := Opening.parse_typeByte e.kind more hpos (by rw [hsize]; omega)
      (contents ++ fill ++ rest)
    rw [hsize] at hparse
    simpa [Bytes.ofNat] using hparse
  have hinside : ((typeByte e.kind more :: UInt8.ofNat words :: (contents ++ fill ++ rest)).take
      (words * wordLength)).drop 2 = contents ++ fill := by
    rw [← hlength, List.take_succ_cons, List.take_succ_cons, List.take_left]
    rfl
  have hlong : words * wordLength ≤
      (typeByte e.kind more :: UInt8.ofNat words :: (contents ++ fill ++ rest)).length := by
    rw [← hlength]
    simp only [List.length_cons, List.length_append]
    omega
  rw [decode, hopening, ok_bind, require_of_le hlong, ok_bind, if_neg hkind]
  dsimp only
  rw [hinside, parseBody_contents h hshort hdelimited hlength htwo hcloses]
  rfl

/-- Bundles are read from a block of them. -/
lemma decode_bundles {b : WeightBundles} {more : Bool} {words taken : ℕ} {data : Bytes}
    {weights : Option UInt16} (hpos : 0 < words) (hle : words ≤ 65535)
    (hlong : words * wordLength ≤ data.length + 3)
    (h : WeightBundles.parse (typeByte .weightBundles more :: (Bytes.ofNat 2 words ++ data))
      (words * wordLength) weights = .ok (b, taken)) :
    decode (typeByte .weightBundles more :: (Bytes.ofNat 2 words ++ data)) weights =
      .ok ⟨weightBundles b, more, words * wordLength, taken⟩ := by
  have hopening : Opening.parse (typeByte .weightBundles more :: (Bytes.ofNat 2 words ++ data)) =
      .ok ⟨more, .weightBundles, words * wordLength, 3⟩ :=
    Opening.parse_typeByte .weightBundles more hpos (Nat.lt_succ_of_le hle) data
  have hall : words * wordLength ≤
      (typeByte .weightBundles more :: (Bytes.ofNat 2 words ++ data)).length := by
    rw [List.length_cons, List.length_append, Bytes.length_ofNat]
    omega
  rw [decode, hopening, ok_bind, require_of_le hall, ok_bind, if_pos rfl]
  dsimp only
  rw [parseBody, h]
  rfl

/-- A short extension is a block with its contents in front of fewer than four zeros. -/
lemma encode_short_eq_ok {e : Extension} {more : Bool} {encoded : Encoded}
    (hshort : e.isBundles = false) (h : e.encode more = .ok encoded) :
    ∃ contents zeros words, e.contents = .ok contents ∧ words ≤ 255 ∧
      (contents ++ Bytes.zeros zeros).length + 2 = words * wordLength ∧
      words * wordLength = blockLength contents.length ∧
      encoded.wire = typeByte e.kind more :: UInt8.ofNat words :: (contents ++ Bytes.zeros zeros) ∧
      encoded.wire.length = words * wordLength := by
  rw [encode_of_short hshort] at h
  simp only [bind_eq_ok, pure_eq_ok] at h
  obtain ⟨bytes, ⟨contents, hcontents, hblock⟩, rfl⟩ := h
  have hwire : (Encoded.inline bytes).wire = bytes := List.append_nil bytes
  have hlength := length_block hblock
  have haligned := blockLength_eq contents.length
  obtain ⟨hbytes, hwords⟩ := block_eq_ok hblock
  have hexact : blockLength contents.length / wordLength * wordLength =
      blockLength contents.length := by
    rw [haligned, wordLength]
    omega
  refine ⟨contents, _, _, hcontents, hwords, ?_, hexact, hwire.trans hbytes, ?_⟩
  · rw [hexact, List.length_append, Bytes.length_zeros]
    omega
  · rw [hwire, hlength, hexact]

/-- The block of bundles, and what is taken of it by a reader that finds their end. -/
lemma encode_bundles_eq_ok {b : WeightBundles} {more : Bool} {encoded : Encoded}
    (h : (weightBundles b).encode more = .ok encoded) :
    ∃ words inside, 0 < words ∧ words ≤ 65535 ∧ inside.length + 3 = words * wordLength ∧
      encoded.wire = typeByte .weightBundles more :: (Bytes.ofNat 2 words ++ inside) ∧
      encoded.wire.length = words * wordLength ∧
      ∀ weights rest, b.Delimited weights →
        WeightBundles.parse (encoded.wire ++ rest) (words * wordLength) weights =
          .ok (b.received, words * wordLength) := by
  simp only [encode, bind_eq_ok, pure_eq_ok] at h
  obtain ⟨⟨header, zeros⟩, hheader, rfl⟩ := h
  have hparse := fun weights rest (hdelimited : b.Delimited weights) =>
    WeightBundles.parse_encodeHeader hheader hdelimited rest
  obtain ⟨words, hpos, hle, htotal, -, -, hbytes⟩ := WeightBundles.encodeHeader_eq_ok hheader
  have hwire : (Encoded.split header b.payload zeros).wire =
      header ++ (b.payload.bytes ++ Bytes.zeros zeros) := by
    simp [Encoded.wire, Encoded.segments, Segment.bytes]
  have hlength : header.length + b.payload.bytes.length + zeros = words * wordLength := by
    rw [← htotal, hbytes]
    rfl
  refine ⟨words, header.drop 3 ++ (b.payload.bytes ++ Bytes.zeros zeros), hpos, hle, ?_, ?_, ?_,
    fun weights rest hdelimited => ?_⟩
  · rw [← hlength, hbytes]
    simp
    omega
  · rw [hwire, hbytes]
    simp [Bytes.ofNat]
  · rw [hwire, ← hlength]
    simp [Nat.add_assoc]
  · rw [hwire, ← hlength, List.append_assoc, List.append_assoc]
    exact hparse weights rest hdelimited

/-- An extension is read as it was written, whatever follows it, and its announced length is that of
its contents. -/
theorem decode_encode {e : Extension} {more : Bool} {encoded : Encoded} {weights : Option UInt16}
    (h : e.encode more = .ok encoded) (hdelimited : e.Delimited weights) (rest : Bytes) :
    decode (encoded.wire ++ rest) weights =
      .ok ⟨e.received, more, encoded.wire.length, encoded.wire.length⟩ := by
  rcases hbundles : e.isBundles with _ | _
  · obtain ⟨contents, zeros, words, hcontents, hwords, hlength, hexact, hwire, hwireLength⟩ :=
      encode_short_eq_ok hbundles h
    rw [hwireLength, hwire, received_of_short hbundles, List.cons_append, List.cons_append,
      decode_contents hcontents hbundles hdelimited hlength hwords (.inr hexact), hexact]
  · cases e with
    | weightBundles b =>
      obtain ⟨words, inside, hpos, hle, hlength, hwire, hwireLength, hparse⟩ :=
        encode_bundles_eq_ok h
      have hread := hparse weights rest hdelimited
      rw [hwire, List.cons_append, List.append_assoc] at hread
      rw [hwireLength, hwire, List.cons_append, List.append_assoc]
      refine decode_bundles hpos hle ?_ hread
      rw [List.length_append]
      omega
    | _ => cases hbundles

end Extension

end OpenFronthaul
