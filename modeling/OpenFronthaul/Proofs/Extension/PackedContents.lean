import OpenFronthaul.Extension.Beams
import OpenFronthaul.Extension.Modulation
import OpenFronthaul.Extension.Weights
import OpenFronthaul.Proofs.Extension.Block
import OpenFronthaul.Proofs.Wire.Bits

/-!
# Contents of short extensions: packed bits

The same for the extensions with fields narrower than a byte: weights, sets of modulation scalings
and attributes of beams.  Each field is taken off the front of the bits that were packed, and what
follows the last field does not matter.
-/

namespace OpenFronthaul

open Extension

variable {contents : Bytes} {tail bits : Bits} {position : ℕ}

/-! ## Weights -/

namespace Weight

variable {width : ℕ}

lemma packPart_eq_ok {part : ℤ} (h : packPart width part = .ok bits) :
    (-2 ^ (width - 1) ≤ part ∧ part < 2 ^ (width - 1)) ∧ bits = Bits.ofInt width part := by
  rw [packPart, guard_eq_ok, pure_eq_ok] at h
  obtain ⟨hrange, rfl⟩ := h
  exact ⟨by omega, rfl⟩

lemma packPart_of_range {part : ℤ} (hlow : -2 ^ (width - 1) ≤ part)
    (hhigh : part < 2 ^ (width - 1)) : packPart width part = .ok (Bits.ofInt width part) := by
  rw [packPart, if_neg (by omega)]
  rfl

/-- A part of at most sixteen bits is the same in sixteen bits. -/
lemma bmod_part {part : ℤ} (hwidth : width ≤ 16) (hlow : -2 ^ (width - 1) ≤ part)
    (hhigh : part < 2 ^ (width - 1)) : Int.bmod part 65536 = part := by
  have hpow : (2 : ℤ) ^ (width - 1) ≤ 2 ^ 15 := pow_le_pow_right₀ (by norm_num) (by omega)
  refine Int.bmod_eq_of_le ?_ ?_ <;> omega

/-- A weight is read as it was packed. -/
lemma read?_append {re im : ℤ} {front back : Bits} (hpos : 0 < width) (hwidth : width ≤ 16)
    (hre : packPart width re = .ok front) (him : packPart width im = .ok back) :
    read? width ⟨front ++ (back ++ tail), position⟩ =
      some (⟨re, im⟩, ⟨tail, position + width + width⟩) := by
  obtain ⟨⟨hlow, hhigh⟩, rfl⟩ := packPart_eq_ok hre
  obtain ⟨⟨hlow', hhigh'⟩, rfl⟩ := packPart_eq_ok him
  simp only [read?, BitReader.readSigned?_ofInt hpos hlow hhigh,
    BitReader.readSigned?_ofInt hpos hlow' hhigh', Option.bind_eq_bind, Option.bind_some,
    bmod_part hwidth hlow hhigh, bmod_part hwidth hlow' hhigh']
  rfl

lemma pack_cons {weight : Weight} {weights : List Weight}
    (h : pack width (weight :: weights) = .ok bits) :
    ∃ front back rest, packPart width weight.re = .ok front ∧
      packPart width weight.im = .ok back ∧ pack width weights = .ok rest ∧
      bits = front ++ (back ++ rest) := by
  simp only [pack, bind_eq_ok, pure_eq_ok] at h
  obtain ⟨front, hre, back, him, rest, hrest, rfl⟩ := h
  exact ⟨front, back, rest, hre, him, hrest, List.append_assoc ..⟩

lemma length_pack {weights : List Weight} (h : pack width weights = .ok bits) :
    bits.length = weights.length * 2 * width := by
  induction weights generalizing bits with
  | nil =>
    obtain rfl := pure_eq_ok.mp h
    simp
  | cons weight weights ih =>
    obtain ⟨front, back, rest, hre, him, hrest, rfl⟩ := pack_cons h
    obtain ⟨-, rfl⟩ := packPart_eq_ok hre
    obtain ⟨-, rfl⟩ := packPart_eq_ok him
    simp only [List.length_append, Bits.length_ofInt, ih hrest, List.length_cons]
    ring

/-- Weights are read as they were packed. -/
lemma readMany_pack {weights : List Weight} (hpos : 0 < width) (hwidth : width ≤ 16)
    (h : pack width weights = .ok bits) :
    readMany width weights.length ⟨bits ++ tail, position⟩ = .ok weights := by
  induction weights generalizing bits position with
  | nil => rfl
  | cons weight weights ih =>
    obtain ⟨front, back, rest, hre, him, hrest, rfl⟩ := pack_cons h
    rw [List.length_cons, readMany, List.append_assoc, List.append_assoc,
      read?_append hpos hwidth hre him]
    dsimp only
    rw [ih hrest]
    rfl

/-- Weights are read from the bytes that they were packed into. -/
lemma unpack_pack {weights : List Weight} (hpos : 0 < width) (hwidth : width ≤ 16)
    (h : pack width weights = .ok bits) (rest : Bytes) :
    unpack width weights.length (bits.toBytes ++ rest) = .ok weights := by
  obtain ⟨tail, htail⟩ := Bits.exists_ofBytes_toBytes bits rest
  rw [unpack, BitReader.ofBytes, htail, readMany_pack hpos hwidth h]

lemma length_toBytes_pack {weights : List Weight} (h : pack width weights = .ok bits) :
    bits.toBytes.length = packedLength weights.length width := by
  rw [Bits.length_toBytes, length_pack h, packedLength]

end Weight

namespace WeightCompression

lemma checkWidth_eq_ok {width : UInt8} : checkWidth width = .ok () ↔
    1 ≤ width.toNat ∧ width.toNat ≤ 16 := by
  rw [checkWidth, guard_eq_ok, pure_eq_ok, and_iff_left rfl]
  omega

/-- The byte with width and method is read as it was written. -/
lemma toNat_header (method : WeightCompression) (width : UInt8) :
    (method.header width).toNat = SampleWidth.toWire width * 16 + method.code := by
  have := method.code_lt
  have := SampleWidth.toWire_lt width
  rw [header, UInt8.toNat_ofNat', Nat.mod_eq_of_lt (by omega)]

lemma ofHeader_header (method : WeightCompression) (width : UInt8) :
    ofHeader (method.header width).toNat = .ok method := by
  have := method.code_lt
  have hcode : (method.header width).toNat % 16 = method.code := by
    rw [toNat_header]
    omega
  rw [ofHeader, hcode, ofCode?_code]
  rfl

lemma ofWire_header {method : WeightCompression} {width : UInt8}
    (h : checkWidth width = .ok ()) :
    SampleWidth.ofWire ((method.header width).toNat / 16) = width := by
  obtain ⟨hpos, hle⟩ := checkWidth_eq_ok.mp h
  have := method.code_lt
  have hwire : (method.header width).toNat / 16 = SampleWidth.toWire width := by
    rw [toNat_header]
    omega
  rw [hwire, SampleWidth.ofWire_toWire hpos hle]

end WeightCompression

/-- The parameter of a compression is read as it was written. -/
lemma WeightCoding.parse_encodeParam {coding : WeightCoding} {param : Bytes} (head : UInt8)
    (h : coding.encodeParam = .ok param) (rest : Bytes) :
    coding.method.paramLength = .ok param.length ∧
      parse coding.method (head :: (param ++ rest)) = .ok coding := by
  cases coding with
  | none =>
    obtain rfl := pure_eq_ok.mp h
    exact ⟨rfl, rfl⟩
  | blockFloatingPoint exponent =>
    rw [encodeParam, guard_eq_ok, pure_eq_ok] at h
    obtain ⟨hexponent, rfl⟩ := h
    have hmod : exponent.toNat % 16 = exponent.toNat := by omega
    refine ⟨rfl, ?_⟩
    rw [method, parse, require_of_le (by simp), ok_bind, byteAt_cons_succ, List.cons_append,
      byteAt_cons_zero, hmod, UInt8.ofNat_toNat]
    rfl
  | blockScaling | muLaw | beamspace => cases h

namespace WeightVector

/-- A vector is read as it was written by a reader that knows the number of its weights. -/
lemma parseBody_append {v : WeightVector} {count : UInt16} (h : v.encodeBody = .ok contents)
    (hcount : v.weights.length = count.toNat) (rest : Bytes) :
    parseBody (contents ++ rest) (some count) = .ok (v, contents.length) := by
  obtain ⟨width, coding, weights⟩ := v
  simp only [encodeBody, bind_eq_ok, pure_eq_ok] at h hcount
  obtain ⟨_, hwidth, param, hparam, bits, hbits, rfl⟩ := h
  obtain ⟨hpos, hle⟩ := WeightCompression.checkWidth_eq_ok.mp hwidth
  have hlength := Weight.length_toBytes_pack hbits
  have hunpack := Weight.unpack_pack hpos hle hbits []
  rw [hcount] at hlength hunpack
  rw [List.append_nil] at hunpack
  have htake : (bits.toBytes ++ rest).take (Weight.packedLength count.toNat width.toNat) =
      bits.toBytes := by
    rw [List.take_append_of_le_length hlength.ge, List.take_of_length_le hlength.le]
  obtain ⟨hparamLength, hcoding⟩ := WeightCoding.parse_encodeParam (coding.method.header width)
    hparam (bits.toBytes ++ rest)
  have hdrop : (coding.method.header width :: (param ++ (bits.toBytes ++ rest))).drop
      (1 + param.length) = bits.toBytes ++ rest := by
    rw [Nat.add_comm, List.drop_succ_cons, List.drop_left]
  rw [parseBody, require_of_le (by simp), ok_bind, List.cons_append, List.cons_append,
    List.append_assoc, byteAt_cons_zero]
  dsimp only
  rw [WeightCompression.ofWire_header hwidth, WeightCompression.ofHeader_header, ok_bind, hcoding,
    ok_bind, hparamLength, ok_bind, hdrop, require_of_le (by rw [List.length_append]; omega),
    ok_bind, htake, hunpack, ok_bind, List.length_cons, List.length_append, hlength,
    Nat.add_assoc, Nat.add_comm 1]
  rfl

end WeightVector

/-! ## Sets of modulation scalings -/

namespace ModulationSet

lemma encode_eq_ok {s : ModulationSet} (h : s.encode = .ok bits) :
    (s.reMask.toNat < 2 ^ 12 ∧ s.offset.toNat < 2 ^ 15) ∧
      bits = Bits.ofNat 12 s.reMask.toNat
        ++ (Bits.ofNat 1 s.shifted.toNat ++ Bits.ofNat 15 s.offset.toNat) := by
  rw [encode, guard_eq_ok, pure_eq_ok] at h
  obtain ⟨hrange, rfl⟩ := h
  refine ⟨by omega, ?_⟩
  rw [List.append_assoc]
  cases s.shifted <;> rfl

/-- A set is read as it was packed. -/
lemma read?_append {s : ModulationSet} (h : s.encode = .ok bits) :
    read? ⟨bits ++ tail, position⟩ = some (s, ⟨tail, position + 12 + 1 + 15⟩) := by
  obtain ⟨⟨hmask, hoffset⟩, rfl⟩ := encode_eq_ok h
  obtain ⟨mask, shifted, offset⟩ := s
  have hshifted : decide (shifted.toNat = 1) = shifted := by cases shifted <;> rfl
  simp only [read?, List.append_assoc, BitReader.read?_ofNat hmask,
    BitReader.read?_ofNat (show shifted.toNat < 2 ^ 1 from shifted.toNat_lt),
    BitReader.read?_ofNat hoffset, Option.bind_eq_bind, Option.bind_some, UInt16.ofNat_toNat,
    hshifted]
  rfl

lemma length_encode {s : ModulationSet} (h : s.encode = .ok bits) : bits.length = 28 := by
  obtain ⟨-, rfl⟩ := encode_eq_ok h
  simp

/-- A pair of sets takes eight bytes, a last one four. -/
lemma length_encodeAll {sets : List ModulationSet} (h : encodeAll sets = .ok bits) :
    bits.length = 64 * (sets.length / 2) + 32 * (sets.length % 2) := by
  induction sets using encodeAll.induct generalizing bits with
  | case1 =>
    obtain rfl := pure_eq_ok.mp h
    rfl
  | case2 s =>
    simp only [encodeAll, bind_eq_ok, pure_eq_ok] at h
    obtain ⟨front, hfront, rfl⟩ := h
    simp [length_encode hfront]
  | case3 s t rest ih =>
    simp only [encodeAll, bind_eq_ok, pure_eq_ok] at h
    obtain ⟨first, hfirst, second, hsecond, others, hothers, rfl⟩ := h
    simp only [List.length_append, length_encode hfirst, length_encode hsecond,
      Bits.length_ofNat, ih hothers, List.length_cons]
    omega

/-- Sets are read as they were packed. -/
lemma readMany?_encodeAll {sets : List ModulationSet} (h : encodeAll sets = .ok bits) :
    readMany? sets.length ⟨bits ++ tail, position⟩ = some sets := by
  induction sets using encodeAll.induct generalizing bits position with
  | case1 => rfl
  | case2 s =>
    simp only [encodeAll, bind_eq_ok, pure_eq_ok] at h
    obtain ⟨front, hfront, rfl⟩ := h
    rw [List.length_singleton, readMany?, List.append_assoc, read?_append hfront]
    rfl
  | case3 s t rest ih =>
    simp only [encodeAll, bind_eq_ok, pure_eq_ok] at h
    obtain ⟨first, hfirst, second, hsecond, others, hothers, rfl⟩ := h
    simp only [List.length_cons, readMany?, List.append_assoc, read?_append hfirst,
      read?_append hsecond, Option.bind_eq_bind, Option.bind_some,
      BitReader.read?_ofNat (show 0 < 2 ^ 8 by norm_num), ih hothers]
    rfl

/-- The number of sets follows from the length of the block. -/
lemma parseBody_append {sets : List ModulationSet} {rest : Bytes}
    (h : encodeBody sets = .ok contents)
    (hrest : (contents ++ rest).length + 2 = blockLength contents.length) :
    parseBody (contents ++ rest) = .ok sets ∧
      wireLength sets.length = blockLength contents.length := by
  simp only [encodeBody, check_eq_ok, bind_eq_ok, pure_eq_ok] at h
  obtain ⟨hcount, bits, hbits, rfl⟩ := h
  obtain ⟨hne, hmost⟩ : sets ≠ [] ∧ sets.length ≤ maxSets := by simpa using hcount
  have hpos := List.length_pos_iff.mpr hne
  have hlength : bits.toBytes.length = 8 * (sets.length / 2) + 4 * (sets.length % 2) := by
    rw [Bits.length_toBytes, length_encodeAll hbits]
    omega
  rw [blockLength_eq] at hrest
  -- an odd last set leaves room for less than another one, and the limit cuts off the rest
  have hroom : roomFor (bits.toBytes ++ rest).length = sets.length := by
    unfold roomFor maxSets
    unfold maxSets at hmost
    split_ifs <;> omega
  obtain ⟨tail, htail⟩ := Bits.exists_ofBytes_toBytes bits rest
  refine ⟨?_, ?_⟩
  · rw [parseBody, hroom, if_neg (by omega), BitReader.ofBytes, htail, readMany?_encodeAll hbits]
    rfl
  · rw [wireLength, blockLength, hlength, Nat.add_assoc]

end ModulationSet

/-! ## Attributes of beams -/

lemma BeamParameter.check_eq_ok {p : BeamParameter} (h : p.check = .ok ()) :
    p.widthCode.toNat ≤ 7 ∧ p.value.toNat < 2 ^ p.bits := by
  rw [BeamParameter.check, guard_eq_ok, guard_eq_ok] at h
  exact ⟨by omega, by omega⟩

namespace BeamAttributes

lemma toNat_codePair {high low : UInt8} (hhigh : high.toNat ≤ 7) (hlow : low.toNat ≤ 7) :
    (codePair high low).toNat = high.toNat * 8 + low.toNat := by
  rw [codePair, UInt8.toNat_ofNat', Nat.mod_eq_of_lt (by omega)]

/-- Both codes of a pair are read as they were written. -/
lemma codePair_split {high low : UInt8} (hhigh : high.toNat ≤ 7) (hlow : low.toNat ≤ 7) :
    (codePair high low).toNat / 8 % 8 = high.toNat ∧
      (codePair high low).toNat % 8 = low.toNat := by
  rw [toNat_codePair hhigh hlow]
  omega

/-- A parameter is read as it was packed. -/
lemma readParameter_append {p : BeamParameter} (h : p.check = .ok ()) :
    readParameter p.widthCode.toNat ⟨Bits.ofNat p.bits p.value.toNat ++ tail, position⟩ =
      .ok (p, ⟨tail, position + p.bits⟩) := by
  obtain ⟨-, hvalue⟩ := BeamParameter.check_eq_ok h
  rw [readParameter]
  simp only [BeamParameter.bits] at hvalue ⊢
  rw [BitReader.read?_ofNat hvalue]
  simp only [UInt8.ofNat_toNat]
  rfl

/-- The reader of the parameters stands behind all of their bits in the end. -/
lemma bytesConsumed_bits (a : BeamAttributes) (tail : Bits) :
    BitReader.bytesConsumed ⟨tail, 0 + a.azimuth.bits + a.zenith.bits + a.azimuthWidth.bits
      + a.zenithWidth.bits⟩ = a.bits.toBytes.length := by
  rw [BitReader.bytesConsumed, Bits.length_toBytes, bits, List.length_flatMap]
  simp [parameters]
  congr 2
  omega

lemma parseBody_append {a : BeamAttributes} (h : a.encodeBody = .ok contents) (rest : Bytes) :
    parseBody (contents ++ rest) = .ok (a, contents.length) := by
  simp only [encodeBody, bind_eq_ok, check_eq_ok, pure_eq_ok] at h
  obtain ⟨_, hparameters, hsidelobes, rfl⟩ := h
  rw [forM_eq_ok] at hparameters
  have hazimuth := hparameters a.azimuth (by simp [parameters])
  have hzenith := hparameters a.zenith (by simp [parameters])
  have hazimuthWidth := hparameters a.azimuthWidth (by simp [parameters])
  have hzenithWidth := hparameters a.zenithWidth (by simp [parameters])
  obtain ⟨hhigh, hlow⟩ := codePair_split (BeamParameter.check_eq_ok hazimuth).1
    (BeamParameter.check_eq_ok hzenith).1
  obtain ⟨hhigh', hlow'⟩ := codePair_split (BeamParameter.check_eq_ok hazimuthWidth).1
    (BeamParameter.check_eq_ok hzenithWidth).1
  obtain ⟨hside, hside'⟩ := codePair_split (show a.azimuthSidelobe.toNat ≤ 7 by omega)
    (show a.zenithSidelobe.toNat ≤ 7 by omega)
  -- the bits come out of their bytes in front of the sidelobes, which are read as a byte
  obtain ⟨tail, htail⟩ := Bits.exists_ofBytes_toBytes a.bits
    (codePair a.azimuthSidelobe a.zenithSidelobe :: rest)
  have hbits : a.bits ++ tail = Bits.ofNat a.azimuth.bits a.azimuth.value.toNat
      ++ (Bits.ofNat a.zenith.bits a.zenith.value.toNat
        ++ (Bits.ofNat a.azimuthWidth.bits a.azimuthWidth.value.toNat
          ++ (Bits.ofNat a.zenithWidth.bits a.zenithWidth.value.toNat ++ tail))) := by
    simp [bits, parameters]
  have hsidelobe : ∀ first second : UInt8, byteAt (first :: second
      :: (a.bits.toBytes ++ codePair a.azimuthSidelobe a.zenithSidelobe :: rest))
        (2 + a.bits.toBytes.length) = (codePair a.azimuthSidelobe a.zenithSidelobe).toNat := by
    intro first second
    rw [Nat.add_comm, byteAt_cons_succ, byteAt_cons_succ, byteAt_append_cons _ rfl]
  rw [parseBody, require_of_le (by simp), ok_bind]
  simp only [List.cons_append, List.nil_append, List.append_assoc, byteAt_cons_zero,
    byteAt_cons_succ, hhigh, hlow, hhigh', hlow', List.drop_succ_cons, List.drop_zero,
    BitReader.ofBytes, htail, hbits, readParameter_append hazimuth, readParameter_append hzenith,
    readParameter_append hazimuthWidth, readParameter_append hzenithWidth, ok_bind,
    bytesConsumed_bits, hsidelobe, hside, hside', UInt8.ofNat_toNat]
  rw [require_of_le (by simp; omega), ok_bind, pure_eq_ok]
  simp
  omega

end BeamAttributes

end OpenFronthaul
