import OpenFronthaul.Proofs.Extension.Rewriting

/-!
# Blocks that are longer than their contents

The contents of an extension never go beyond its block (`within_of_decode`), but may end before it
does.  A block that gets more bytes at its end, counted in its length (`stretch`), is read as the
same extension where the reader finds the end of the contents by itself (`decode_stretch`); only the
length of the block is another one.
-/

namespace OpenFronthaul

open Extension

/-! ## What is taken of a block -/

lemma Extension.blockLength_le {taken length : ℕ} (hdvd : wordLength ∣ length)
    (h : taken + 2 ≤ length) : blockLength taken ≤ length ∧ wordLength ∣ blockLength taken := by
  obtain ⟨words, rfl⟩ := hdvd
  rw [blockLength_eq]
  unfold wordLength at h ⊢
  exact ⟨by omega, by omega⟩

lemma WeightVector.taken_le {body : Bytes} {known : Option UInt16} {r : WeightVector × ℕ}
    (h : parseBody body known = .ok r) : r.2 ≤ body.length := by
  cases known with
  | none =>
    simp only [parseBody, bind_eq_ok] at h
    obtain ⟨_, -, _, -, _, -, h⟩ := h
    cases h
  | some count =>
    simp only [parseBody, bind_eq_ok, pure_eq_ok, require, guard_eq_ok, not_lt] at h
    obtain ⟨_, ⟨hbody, -⟩, method, -, coding, hcoding, offset, hoffset, _, ⟨hroom, -⟩, weights, -,
      rfl⟩ := h
    obtain ⟨-, param, -, hparam, hle⟩ := WeightCoding.encodeParam_parse hcoding hbody
    obtain rfl : param.length = offset := Except.ok.inj (hparam.symm.trans hoffset)
    rw [List.length_drop] at hroom
    dsimp only
    omega

lemma BeamAttributes.taken_le {body : Bytes} {r : BeamAttributes × ℕ}
    (h : parseBody body = .ok r) : r.2 ≤ body.length := by
  simp only [parseBody, bind_eq_ok, pure_eq_ok, require, guard_eq_ok, not_lt, Prod.exists] at h
  obtain ⟨_, -, _, _, -, _, _, -, _, _, -, _, _, -, _, ⟨hroom, -⟩, rfl⟩ := h
  exact hroom

lemma BeamGroup.taken_le {body : Bytes} {r : BeamGroup × ℕ} (h : parseBody body = .ok r) :
    r.2 ≤ body.length := by
  rcases htype : BeamGroupType.ofCode? (byteAt body 0 / 64) with _ | type
  · simp only [parseBody, htype, bind_eq_ok] at h
    obtain ⟨-, -, h⟩ := h
    cases h
  · simp only [parseBody, htype, bind_eq_ok, require, guard_eq_ok, not_lt] at h
    obtain ⟨_, ⟨htwo, -⟩, h⟩ := h
    cases type with
    | vectorList =>
      simp only [bind_eq_ok, guard_eq_ok, pure_eq_ok, not_lt] at h
      obtain ⟨_, ⟨hroom, -⟩, rfl⟩ := h
      exact hroom
    | common | matrix =>
      obtain rfl := pure_eq_ok.mp h
      exact htwo

/-- Layers take the whole block, since they are told apart by its length. -/
lemma Precoding.wireLength_of_parseBody {body : Bytes} {words : ℕ} {p : Precoding}
    (h : parseBody body words = .ok p) : p.wireLength = words * wordLength := by
  have hbeams {beams : ℕ} {first : FirstLayer} (hfirst : parseFirst body beams = .ok first) :
      first.beams.length = beams := by
    simp only [parseFirst, bind_eq_ok, pure_eq_ok] at hfirst
    obtain ⟨_, -, rfl⟩ := hfirst
    exact (encodeBeams_beamsAt beams (body.drop 6)).1
  simp only [parseBody, bind_eq_ok] at h
  obtain ⟨_, -, h⟩ := h
  split at h
  · obtain rfl := pure_eq_ok.mp h
    rfl
  · obtain ⟨first, hfirst, hp⟩ := bind_eq_ok.mp h
    obtain rfl := pure_eq_ok.mp hp
    simp only [wireLength, hbeams hfirst]
    rfl
  · obtain ⟨first, hfirst, hp⟩ := bind_eq_ok.mp h
    obtain rfl := pure_eq_ok.mp hp
    simp only [wireLength, hbeams hfirst]
    rfl
  · cases h

lemma ModulationSet.wireLength_le {body : Bytes} {sets : List ModulationSet} {length : ℕ}
    (hdvd : wordLength ∣ length) (hlength : body.length + 2 = length)
    (h : parseBody body = .ok sets) :
    wireLength sets.length ≤ length ∧ wordLength ∣ wireLength sets.length := by
  rw [parseBody, guard_eq_ok] at h
  obtain ⟨hroom, h⟩ := h
  rcases hread : readMany? (roomFor body.length) (.ofBytes body) with _ | read
  · rw [hread] at h
    cases h
  · rw [hread] at h
    obtain rfl := pure_eq_ok.mp h
    have hcount := (encodeAll_readMany? hread).1
    obtain ⟨words, rfl⟩ := hdvd
    rw [hcount, wireLength, alignUp_wordLength]
    unfold wordLength at hlength ⊢
    unfold roomFor maxSets
    refine ⟨?_, by omega⟩
    split_ifs <;> omega

lemma PrbGroups.six_le_of_parseBody {body : Bytes} {g : PrbGroups} (h : parseBody body = .ok g) :
    6 ≤ body.length := by
  simp only [parseBody, bind_eq_ok, require, guard_eq_ok, not_lt] at h
  obtain ⟨_, ⟨hsix, -⟩, -⟩ := h
  exact hsix

lemma WeightBundles.taken_le {data : Bytes} {length : ℕ} {weights : Option UInt16}
    {r : WeightBundles × ℕ} (hdvd : wordLength ∣ length) (h : parse data length weights = .ok r) :
    r.2 ≤ length ∧ wordLength ∣ r.2 := by
  obtain ⟨-, hlong, method, taken, -, -, hpast, rfl⟩ := parse_eq_ok.mp h
  obtain ⟨words, rfl⟩ := hdvd
  dsimp only
  rw [alignUp_wordLength]
  unfold wordLength headerLength at *
  exact ⟨by omega, by omega⟩

namespace Extension

variable {data : Bytes} {weights : Option UInt16} {d : Decoded}

/-- What is taken of a short block are whole words of it. -/
lemma taken_le_of_short {kind : ExtensionKind} {body : Bytes} {length : ℕ} {r : Extension × ℕ}
    (hkind : kind ≠ .weightBundles) (hdvd : wordLength ∣ length)
    (hlength : body.length + 2 = length) (h : parseBody kind body length weights = .ok r) :
    r.2 ≤ length ∧ wordLength ∣ r.2 := by
  have hword : 4 ≤ length ∧ wordLength ∣ 4 := by
    obtain ⟨words, rfl⟩ := hdvd
    unfold wordLength at hlength ⊢
    exact ⟨by omega, dvd_rfl⟩
  cases kind with
  | weightBundles => exact absurd rfl hkind
  | beamWeights =>
    simp only [parseBody, bind_eq_ok, pure_eq_ok, Prod.exists] at h
    obtain ⟨v, taken, hv, rfl⟩ := h
    have hle := WeightVector.taken_le hv
    exact blockLength_le hdvd (by omega)
  | beamAttributes =>
    simp only [parseBody, bind_eq_ok, pure_eq_ok, Prod.exists] at h
    obtain ⟨a, taken, ha, rfl⟩ := h
    have hle := BeamAttributes.taken_le ha
    exact blockLength_le hdvd (by omega)
  | beamGroup =>
    simp only [parseBody, bind_eq_ok, pure_eq_ok, Prod.exists] at h
    obtain ⟨g, taken, hg, rfl⟩ := h
    have hle := BeamGroup.taken_le hg
    exact blockLength_le hdvd (by omega)
  | precoding =>
    simp only [parseBody, bind_eq_ok, pure_eq_ok] at h
    obtain ⟨p, hp, rfl⟩ := h
    have hall := Precoding.wireLength_of_parseBody hp
    rw [Nat.div_mul_cancel hdvd] at hall
    exact ⟨hall.le, hall ▸ hdvd⟩
  | modulationSets =>
    simp only [parseBody, bind_eq_ok, pure_eq_ok] at h
    obtain ⟨sets, hsets, rfl⟩ := h
    exact ModulationSet.wireLength_le hdvd hlength hsets
  | prbGroups =>
    simp only [parseBody, bind_eq_ok, pure_eq_ok] at h
    obtain ⟨g, hg, rfl⟩ := h
    have hsix := PrbGroups.six_le_of_parseBody hg
    exact ⟨by dsimp only; omega, 2, rfl⟩
  | modulationScaling | antennaMask | regularization | spectrumSharing =>
    simp only [parseBody, bind_eq_ok, pure_eq_ok] at h
    obtain ⟨_, -, rfl⟩ := h
    exact hword

/-- What is taken of an extension are whole words of its block, and the block is whole words of the
data. -/
lemma within_of_decode (h : decode data weights = .ok d) :
    d.consumed ≤ d.length ∧ d.length ≤ data.length ∧ 4 ∣ d.consumed ∧ 4 ∣ d.length := by
  obtain ⟨opening, hopening, hlength, -, hle, hbody⟩ := decode_eq_ok h
  obtain ⟨words, -, hwords, hheader⟩ := Opening.length_eq hopening
  have hword := Opening.wordLength_le_length hopening
  have hdvd : wordLength ∣ opening.length := Dvd.intro_left words hwords.symm
  rw [← hlength] at hle ⊢
  suffices hwithin : d.consumed ≤ opening.length ∧ wordLength ∣ d.consumed from
    ⟨hwithin.1, hle, hwithin.2, hdvd⟩
  by_cases hkind : opening.kind = .weightBundles
  · rw [if_pos hkind, hkind] at hbody
    simp only [parseBody, bind_eq_ok, pure_eq_ok, Prod.exists] at hbody
    obtain ⟨b, taken, hb, htaken⟩ := hbody
    obtain ⟨-, rfl⟩ := Prod.mk.inj htaken
    exact WeightBundles.taken_le hdvd hb
  · rw [if_neg hkind] at hbody
    have hsize : opening.kind.lengthFieldSize = 1 := by
      cases hopen : opening.kind <;> first | rfl | exact absurd hopen hkind
    refine taken_le_of_short hkind hdvd ?_ hbody
    rw [hheader, hsize, List.length_drop, List.length_take]
    unfold wordLength at hword
    omega

/-! ## Stretching a block -/

/-- A block with some bytes more at its end, which are counted in its length. -/
def stretch (kind : ExtensionKind) (block filler : Bytes) : Bytes :=
  block.take 1 ++ Bytes.ofNat kind.lengthFieldSize
      (numberAt block 1 kind.lengthFieldSize + filler.length / wordLength)
    ++ block.drop (1 + kind.lengthFieldSize) ++ filler

lemma stretch_typeByte {kind : ExtensionKind} {more : Bool} {words : ℕ} {inside filler : Bytes}
    (hwords : words < 256 ^ kind.lengthFieldSize) :
    stretch kind (typeByte kind more :: (Bytes.ofNat kind.lengthFieldSize words ++ inside)) filler =
      typeByte kind more :: (Bytes.ofNat kind.lengthFieldSize (words + filler.length / wordLength)
        ++ (inside ++ filler)) := by
  have hfield : numberAt (typeByte kind more :: (Bytes.ofNat kind.lengthFieldSize words ++ inside))
      1 kind.lengthFieldSize = words := by
    have hread : numberAt ([typeByte kind more] ++ (Bytes.ofNat kind.lengthFieldSize words
        ++ inside)) 1 kind.lengthFieldSize = words % 256 ^ kind.lengthFieldSize :=
      numberAt_append_ofNat words rfl
    rwa [Nat.mod_eq_of_lt hwords] at hread
  have hdrop : (typeByte kind more :: (Bytes.ofNat kind.lengthFieldSize words ++ inside)).drop
      (1 + kind.lengthFieldSize) = inside := by
    rw [Nat.add_comm, List.drop_succ_cons, List.drop_left' (Bytes.length_ofNat _ _)]
  rw [stretch, hfield, hdrop]
  simp

end Extension

namespace WeightBundles

/-- Where the room in the block does not matter for the number of bytes that the bundles take. -/
lemma payloadLength_congr {e : WeightBundles} {weights : Option UInt16}
    (h : e.beamsOnly = true ∨ weights.isSome = true) (room room' : ℕ) :
    e.payloadLength room weights = e.payloadLength room' weights := by
  unfold payloadLength
  split_ifs with hbeams
  · rfl
  · obtain ⟨count, rfl⟩ := Option.isSome_iff_exists.mp (h.resolve_left hbeams)
    rfl

/-- Bundles that end by themselves are read the same from behind a start of the block that announces
a longer one. -/
lemma parse_of_longer {start inside tail : Bytes} (start' : Bytes) {length : ℕ}
    {weights : Option UInt16} {r : WeightBundles × ℕ} (hstart : start.length = 3)
    (hstart' : start'.length = 3)
    (hcloses : r.1.beamsOnly = true ∨ weights.isSome = true)
    (h : parse (start ++ inside) (inside.length + 3) weights = .ok r)
    (hle : inside.length + 3 ≤ length) (hlong : length ≤ (inside ++ tail).length + 3) :
    parse (start' ++ (inside ++ tail)) length weights = .ok r := by
  obtain ⟨-, hfive, method, taken, hmethod, htaken, hpast, rfl⟩ := parse_eq_ok.mp h
  replace hfive : 5 ≤ inside.length := by
    unfold headerLength at hfive
    omega
  obtain ⟨b₀, b₁, b₂, rfl⟩ := List.length_eq_three.mp hstart
  obtain ⟨c₀, c₁, c₂, rfl⟩ := List.length_eq_three.mp hstart'
  obtain ⟨x₀, x₁, x₂, x₃, x₄, payload, rfl⟩ :
      ∃ x₀ x₁ x₂ x₃ x₄ payload, inside = x₀ :: x₁ :: x₂ :: x₃ :: x₄ :: payload := by
    rcases inside with _ | ⟨x₀, _ | ⟨x₁, _ | ⟨x₂, _ | ⟨x₃, _ | ⟨x₄, payload⟩⟩⟩⟩⟩
    all_goals try simp only [List.length_cons, List.length_nil] at hfive; omega
    exact ⟨x₀, x₁, x₂, x₃, x₄, payload, rfl⟩
  -- the fixed part says the same, since only the bytes in front of it are other ones
  have hfixed : fixedPart ([c₀, c₁, c₂] ++ (x₀ :: x₁ :: x₂ :: x₃ :: x₄ :: payload ++ tail)) method =
      fixedPart ([b₀, b₁, b₂] ++ x₀ :: x₁ :: x₂ :: x₃ :: x₄ :: payload) method := rfl
  have htake : (payload ++ tail).take taken = payload.take taken := by
    refine List.take_append_of_le_length ?_
    simp only [List.length_cons, headerLength] at hpast
    omega
  simp only [List.length_cons, List.length_append] at hle hlong hpast
  refine parse_eq_ok.mpr ⟨?_, ?_, method, taken, hmethod, ?_, ?_, ?_⟩
  · simp only [List.length_cons, List.length_append, List.length_nil, headerLength]
    omega
  · rw [headerLength]
    omega
  · rw [hfixed, ← htaken]
    exact payloadLength_congr hcloses _ _
  · omega
  · rw [hfixed]
    exact congrArg (fun bytes : Bytes => (({ fixedPart ([b₀, b₁, b₂] ++ x₀ :: x₁ :: x₂ :: x₃ :: x₄
      :: payload) method with payload := ⟨0, bytes⟩ } : WeightBundles), _)) htake.symm

end WeightBundles

namespace Extension

/-- The block of an extension starts with its kind and its number of words. -/
lemma wire_of_encode {e : Extension} {more : Bool} {encoded : Encoded}
    (h : e.encode more = .ok encoded) :
    ∃ words inside, 0 < words ∧ words < 256 ^ e.kind.lengthFieldSize ∧
      encoded.wire = typeByte e.kind more :: (Bytes.ofNat e.kind.lengthFieldSize words ++ inside) ∧
      encoded.wire.length = words * wordLength := by
  rcases hbundles : e.isBundles with _ | _
  · obtain ⟨contents, zeros, words, -, hle, hlength, -, hwire, hwireLength⟩ :=
      encode_short_eq_ok hbundles h
    refine ⟨words, contents ++ Bytes.zeros zeros, ?_, ?_, ?_, hwireLength⟩
    · refine Nat.pos_of_ne_zero fun hzero => ?_
      rw [hzero] at hlength
      omega
    · rw [(kind_of_short hbundles).2]
      omega
    · rw [hwire, (kind_of_short hbundles).2]
      simp [Bytes.ofNat]
  · cases e with
    | weightBundles b =>
      obtain ⟨words, inside, hpos, hle, -, hwire, hwireLength, -⟩ := encode_bundles_eq_ok h
      exact ⟨words, inside, hpos, Nat.lt_succ_of_le hle, hwire, hwireLength⟩
    | _ => cases hbundles

lemma decode_stretch_short {e : Extension} {more : Bool} {encoded : Encoded}
    {weights : Option UInt16} {filler : Bytes} {k : ℕ} (hshort : e.isBundles = false)
    (h : e.encode more = .ok encoded) (hcloses : e.Closed weights)
    (hk : filler.length = k * wordLength)
    (hwords : (encoded.wire.length + filler.length) / 4 < 256 ^ e.kind.lengthFieldSize)
    (rest : Bytes) :
    decode (stretch e.kind encoded.wire filler ++ rest) weights =
      .ok ⟨e, more, encoded.wire.length + filler.length, encoded.wire.length⟩ := by
  obtain ⟨contents, zeros, words, hcontents, hle, hlength, hexact, hwire, hwireLength⟩ :=
    encode_short_eq_ok hshort h
  obtain ⟨-, hsize⟩ := kind_of_short hshort
  have hlonger : filler.length / wordLength = k := by
    rw [hk, Nat.mul_div_cancel k (by decide)]
  have hsum : words * wordLength + filler.length = (words + k) * wordLength := by
    rw [hk, Nat.add_mul]
  have hfits : words + k ≤ 255 := by
    rw [hwireLength, hsum, hsize, wordLength, Nat.mul_div_cancel _ (by decide)] at hwords
    exact Nat.le_of_lt_succ hwords
  have hinside : (contents ++ (Bytes.zeros zeros ++ filler)).length + 2 =
      (words + k) * wordLength := by
    rw [← hsum, ← hlength]
    simp only [List.length_append]
    omega
  have hdata : stretch e.kind encoded.wire filler = typeByte e.kind more ::
      UInt8.ofNat (words + k) :: (contents ++ (Bytes.zeros zeros ++ filler)) := by
    have hblock : encoded.wire = typeByte e.kind more ::
        (Bytes.ofNat e.kind.lengthFieldSize words ++ (contents ++ Bytes.zeros zeros)) := by
      rw [hwire, hsize]
      simp [Bytes.ofNat]
    rw [hblock, stretch_typeByte (by rw [hsize]; omega), hlonger, hsize]
    simp [Bytes.ofNat]
  rw [hwireLength, hsum, hexact, hdata, List.cons_append, List.cons_append]
  exact decode_contents hcontents hshort hcloses.delimited hinside hfits (.inl hcloses) rest

lemma decode_stretch_bundles {b : WeightBundles} {more : Bool} {encoded : Encoded}
    {weights : Option UInt16} {filler : Bytes} {k : ℕ}
    (h : (weightBundles b).encode more = .ok encoded) (hcloses : (weightBundles b).Closed weights)
    (hk : filler.length = k * wordLength)
    (hwords : (encoded.wire.length + filler.length) / 4 < 256 ^ 2) (rest : Bytes) :
    decode (stretch .weightBundles encoded.wire filler ++ rest) weights =
      .ok ⟨weightBundles b.received, more, encoded.wire.length + filler.length,
        encoded.wire.length⟩ := by
  obtain ⟨words, inside, hpos, hle, hlength, hwire, hwireLength, hparse⟩ := encode_bundles_eq_ok h
  have hlonger : filler.length / wordLength = k := by
    rw [hk, Nat.mul_div_cancel k (by decide)]
  have hsum : words * wordLength + filler.length = (words + k) * wordLength := by
    rw [hk, Nat.add_mul]
  have hfits : words + k ≤ 65535 := by
    rw [hwireLength, hsum, wordLength, Nat.mul_div_cancel _ (by decide)] at hwords
    exact Nat.le_of_lt_succ hwords
  have hdata : stretch .weightBundles encoded.wire filler ++ rest = typeByte .weightBundles more ::
      (Bytes.ofNat 2 (words + k) ++ (inside ++ (filler ++ rest))) := by
    have hstretch : stretch .weightBundles
        (typeByte .weightBundles more :: (Bytes.ofNat 2 words ++ inside)) filler =
          typeByte .weightBundles more ::
            (Bytes.ofNat 2 (words + filler.length / wordLength) ++ (inside ++ filler)) :=
      stretch_typeByte (Nat.lt_succ_of_le hle)
    rw [hwire, hstretch, hlonger]
    simp
  have hlong : (words + k) * wordLength ≤ (inside ++ (filler ++ rest)).length + 3 := by
    rw [← hsum, ← hlength]
    simp only [List.length_append]
    omega
  have hread : WeightBundles.parse (typeByte .weightBundles more ::
      (Bytes.ofNat 2 (words + k) ++ (inside ++ (filler ++ rest)))) ((words + k) * wordLength)
        weights = .ok (b.received, words * wordLength) := by
    have hblock : WeightBundles.parse ((typeByte .weightBundles more :: Bytes.ofNat 2 words)
        ++ inside) (inside.length + 3) weights = .ok (b.received, words * wordLength) := by
      rw [List.cons_append, ← hwire, hlength, ← List.append_nil encoded.wire]
      exact hparse weights [] hcloses.1
    have hle : inside.length + 3 ≤ (words + k) * wordLength := by
      rw [hlength, Nat.add_mul]
      exact Nat.le_add_right _ _
    exact WeightBundles.parse_of_longer (typeByte .weightBundles more :: Bytes.ofNat 2 (words + k))
      rfl rfl hcloses.2 hblock hle hlong
  rw [hdata, hwireLength, hsum]
  exact decode_bundles (Nat.add_pos_left hpos k) hfits hlong hread

/-- An extension whose end is found without the length of its block is read the same from a longer
block, of which the reader takes as much as before. -/
lemma decode_stretch {e : Extension} {more : Bool} {encoded : Encoded} {weights : Option UInt16}
    {filler : Bytes} (h : e.encode more = .ok encoded) (hcloses : e.Closed weights)
    (hdvd : 4 ∣ filler.length)
    (hwords : (encoded.wire.length + filler.length) / 4 < 256 ^ e.kind.lengthFieldSize)
    (rest : Bytes) :
    decode (stretch e.kind encoded.wire filler ++ rest) weights =
      .ok ⟨e.received, more, encoded.wire.length + filler.length, encoded.wire.length⟩ := by
  obtain ⟨k, hk⟩ := hdvd
  replace hk : filler.length = k * wordLength := hk.trans (Nat.mul_comm 4 k)
  rcases hbundles : e.isBundles with _ | _
  · rw [received_of_short hbundles]
    exact decode_stretch_short hbundles h hcloses hk hwords rest
  · cases e with
    | weightBundles b => exact decode_stretch_bundles h hcloses hk hwords rest
    | _ => cases hbundles

/-! ## Blocks that are read alike -/

/-- What is read of two blocks that differ in their length alone. -/
structure Decoded.Alike (d d' : Decoded) (mismatches : ℕ) : Prop where
  extension_eq : d'.extension = d.extension
  more_eq : d'.more = d.more
  mismatch_eq : d'.mismatch.toNat = d.mismatch.toNat + mismatches

/-- Two blocks of which the second one is read wherever the first one is: as the same extension, and
with some mismatches more. -/
structure ReadAlike (weights : Option UInt16) (more : Bool) (block block' : Bytes)
    (mismatches : ℕ) : Prop where
  ends : ∀ {rest d}, decode (block ++ rest) weights = .ok d →
    d.more = more ∧ d.length = block.length
  alike : ∀ {rest d}, decode (block ++ rest) weights = .ok d → ∃ d' : Decoded,
    (∀ rest', decode (block' ++ rest') weights = .ok d') ∧ d'.length = block'.length ∧
      d.Alike d' mismatches

/-- What is read of a block has its length, and does not depend on what follows it. -/
lemma decode_of_encode {e : Extension} {more : Bool} {encoded : Encoded} {weights : Option UInt16}
    {rest : Bytes} {d : Decoded} (h : e.encode more = .ok encoded)
    (hd : decode (encoded.wire ++ rest) weights = .ok d) :
    d.more = more ∧ d.length = encoded.wire.length ∧
      ∀ rest', decode (encoded.wire ++ rest') weights = .ok d := by
  obtain ⟨words, inside, hpos, hlt, hwire, hlength⟩ := wire_of_encode h
  obtain ⟨opening, hopening, hopeningLength, hmore, -⟩ := decode_eq_ok hd
  have hparse := Opening.parse_typeByte e.kind more hpos hlt (inside ++ rest)
  have hblock : Opening.parse (encoded.wire ++ rest) =
      .ok ⟨more, e.kind, words * wordLength, 1 + e.kind.lengthFieldSize⟩ := by
    rwa [hwire, List.cons_append, List.append_assoc]
  obtain rfl := Except.ok.inj (hblock.symm.trans hopening)
  have hdlength : d.length = encoded.wire.length := hopeningLength.symm.trans hlength.symm
  refine ⟨hmore.symm, hdlength, fun rest' => ?_⟩
  have hdecides := (decides_decode hd).2.append rest'
  rwa [hdlength, List.take_left] at hdecides

/-- A block is read like itself. -/
lemma readAlike_self {e : Extension} {more : Bool} {encoded : Encoded} {weights : Option UInt16}
    (h : e.encode more = .ok encoded) : ReadAlike weights more encoded.wire encoded.wire 0 where
  ends hd := ⟨(decode_of_encode h hd).1, (decode_of_encode h hd).2.1⟩
  alike hd := ⟨_, (decode_of_encode h hd).2.2, (decode_of_encode h hd).2.1, rfl, rfl, rfl⟩

lemma length_stretch {e : Extension} {more : Bool} {encoded : Encoded}
    (h : e.encode more = .ok encoded) (filler : Bytes) :
    (stretch e.kind encoded.wire filler).length = encoded.wire.length + filler.length := by
  obtain ⟨words, inside, -, hlt, hwire, -⟩ := wire_of_encode h
  rw [hwire, stretch_typeByte hlt]
  simp
  omega

/-- A block is read like a longer one, with one mismatch. -/
lemma readAlike_stretch {e : Extension} {more : Bool} {encoded : Encoded} {weights : Option UInt16}
    {filler : Bytes} (h : e.encode more = .ok encoded) (hcloses : e.Closed weights)
    (hne : filler ≠ []) (hdvd : 4 ∣ filler.length)
    (hwords : (encoded.wire.length + filler.length) / 4 < 256 ^ e.kind.lengthFieldSize) :
    ReadAlike weights more encoded.wire (stretch e.kind encoded.wire filler) 1 := by
  have hself := decode_encode h hcloses.delimited
  have hlonger := decode_stretch h hcloses hdvd hwords
  constructor
  · intro rest d hd
    exact ⟨(decode_of_encode h hd).1, (decode_of_encode h hd).2.1⟩
  · intro rest d hd
    obtain rfl := Except.ok.inj ((hself rest).symm.trans hd)
    refine ⟨_, hlonger, (length_stretch h filler).symm, rfl, rfl, ?_⟩
    simp [Decoded.mismatch, hne]

end Extension

end OpenFronthaul
