import OpenFronthaul.Extension.Basic
import OpenFronthaul.Proofs.Extension.Packing

/-!
# One vector of weights, or a bundle of one

The weights of a section are written as a vector in an extension of their own, or as a bundle in a
shared buffer.  Both ways write the same parameter and the same packed weights, and accept the same
weights, with two exceptions: the block of a vector is limited in its length, and an exponent that
needs more than four bits is refused in a vector, while a bundle has its four low bits
(`WeightVector.encode_iff_pack`).
-/

namespace OpenFronthaul

open Extension

namespace WeightCoding

/-- The compression of a method, with the exponent where the method has one. -/
def ofMethod (method : WeightCompression) (exponent : UInt8) : WeightCoding :=
  match method with
  | .none => none
  | .blockFloatingPoint => blockFloatingPoint exponent
  | .blockScaling => blockScaling
  | .muLaw => muLaw
  | .beamspace => beamspace

variable {method : WeightCompression} {exponent : UInt8} {param : Bytes}

lemma method_ofMethod (method : WeightCompression) (exponent : UInt8) :
    (ofMethod method exponent).method = method := by
  cases method <;> rfl

/-- The parameter is written for the methods that bundles are packed with, and it is that of a
bundle; but an exponent that does not fit is refused. -/
lemma encodeParam_ofMethod : (ofMethod method exponent).encodeParam = .ok param ↔
    method.isPackable = true ∧ (method = .blockFloatingPoint → exponent.toNat ≤ 15) ∧
      param = WeightBundles.encodeExponent method (some exponent) := by
  cases method with
  | none =>
    rw [ofMethod, encodeParam, pure_eq_ok]
    constructor
    · rintro rfl
      exact ⟨rfl, fun h => absurd h (by decide), rfl⟩
    · rintro ⟨-, -, rfl⟩
      rfl
  | blockFloatingPoint =>
    rw [ofMethod, encodeParam, guard_eq_ok, pure_eq_ok, not_lt]
    have hwritten (hle : exponent.toNat ≤ 15) :
        WeightBundles.encodeExponent .blockFloatingPoint (some exponent) = [exponent] := by
      rw [WeightBundles.encodeExponent, if_pos rfl, Option.getD_some,
        Nat.mod_eq_of_lt (by omega), UInt8.ofNat_toNat]
    constructor
    · rintro ⟨hle, rfl⟩
      exact ⟨rfl, fun _ => hle, (hwritten hle).symm⟩
    · rintro ⟨-, hle, rfl⟩
      exact ⟨hle rfl, (hwritten (hle rfl)).symm⟩
  | blockScaling | muLaw | beamspace =>
    simp [ofMethod, encodeParam, WeightCompression.isPackable]

end WeightCoding

/-! ## The block of a vector -/

/-- Contents have a block exactly when its length is countable in one byte. -/
lemma Extension.exists_block_iff {kind : ExtensionKind} {more : Bool} {contents : Bytes} :
    (∃ bytes, block kind more contents = .ok bytes) ↔
      blockLength contents.length / wordLength ≤ 255 := by
  simp only [block, guard_eq_ok, pure_eq_ok, not_lt]
  constructor
  · rintro ⟨_, h, -⟩
    exact h
  · intro h
    exact ⟨_, h, rfl⟩

namespace WeightVector

variable {v : WeightVector} {more : Bool} {contents : Bytes} {encoded : Encoded}

/-- Bytes of the contents of the extension. -/
def contentsLength (v : WeightVector) : ℕ :=
  1 + (WeightBundles.encodeExponent v.coding.method none).length
    + Weight.packedLength v.weights.length v.width.toNat

lemma encodeBody_eq_ok : v.encodeBody = .ok contents ↔
    WeightCompression.checkWidth v.width = .ok () ∧ ∃ param, v.coding.encodeParam = .ok param ∧
      ∃ bits, Weight.pack v.width.toNat v.weights = .ok bits ∧
        v.coding.method.header v.width :: (param ++ bits.toBytes) = contents := by
  simp only [encodeBody, bind_eq_ok, pure_eq_ok]
  constructor
  · rintro ⟨⟨⟩, h⟩
    exact h
  · intro h
    exact ⟨(), h⟩

lemma encode_eq_ok : (beamWeights v).encode more = .ok encoded ↔
    ∃ contents, v.encodeBody = .ok contents ∧
      ∃ bytes, block .beamWeights more contents = .ok bytes ∧ .inline bytes = encoded := by
  simp only [Extension.encode, bind_eq_ok, pure_eq_ok]

variable {width : UInt8} {method : WeightCompression} {exponent : UInt8} {weights : List Weight}

/-- The parts of the contents, for a method and an exponent. -/
lemma encodeBody_ofMethod :
    (⟨width, .ofMethod method exponent, weights⟩ : WeightVector).encodeBody = .ok contents ↔
      WeightCompression.checkWidth width = .ok () ∧ method.isPackable = true ∧
        (method = .blockFloatingPoint → exponent.toNat ≤ 15) ∧
        ∃ bits, Weight.pack width.toNat weights = .ok bits ∧
          method.header width ::
            (WeightBundles.encodeExponent method (some exponent) ++ bits.toBytes) = contents := by
  rw [encodeBody_eq_ok]
  simp only [WeightCoding.encodeParam_ofMethod, WeightCoding.method_ofMethod]
  constructor
  · rintro ⟨hwidth, _, ⟨hpackable, hexponent, rfl⟩, hbits⟩
    exact ⟨hwidth, hpackable, hexponent, hbits⟩
  · rintro ⟨hwidth, hpackable, hexponent, hbits⟩
    exact ⟨hwidth, _, ⟨hpackable, hexponent, rfl⟩, hbits⟩

lemma length_encodeBody
    (h : (⟨width, .ofMethod method exponent, weights⟩ : WeightVector).encodeBody = .ok contents) :
    contents.length =
      (⟨width, .ofMethod method exponent, weights⟩ : WeightVector).contentsLength := by
  obtain ⟨-, -, -, bits, hbits, rfl⟩ := encodeBody_ofMethod.mp h
  have hparam : (WeightBundles.encodeExponent method (some exponent)).length =
      (WeightBundles.encodeExponent method none).length := by
    cases method <;> rfl
  rw [contentsLength, WeightCoding.method_ofMethod, List.length_cons, List.length_append, hparam,
    Weight.length_toBytes_pack hbits]
  dsimp only
  omega

/-! ## A bundle of one -/

variable {beam : UInt16} {bytes : Bytes}

/-- The parts of a bundle that is packed alone. -/
lemma pack_singleton_eq_ok (hbeam : beam.toNat < 0x8000) :
    WeightBundles.pack [⟨beam, some exponent, weights⟩] width method = .ok bytes ↔
      WeightCompression.checkWidth width = .ok () ∧ method.isPackable = true ∧
        ∃ bits, Weight.pack width.toNat weights = .ok bits ∧
          bytes = WeightBundles.encodeExponent method (some exponent)
            ++ (Bytes.ofNat 2 beam.toNat ++ bits.toBytes) := by
  have hone (pieces : List Bytes) :
      [(⟨beam, some exponent, weights⟩ : Bundle)].mapM (WeightBundles.packOne width method) =
        .ok pieces ↔ ∃ piece, WeightBundles.packOne width method ⟨beam, some exponent, weights⟩ =
          .ok piece ∧ pieces = [piece] := by
    simp only [mapM_eq_ok, List.forall₂_cons_left_iff, List.forall₂_nil_left_iff]
    exact ⟨fun ⟨piece, _, h, rfl, hpieces⟩ => ⟨piece, h, hpieces⟩,
      fun ⟨piece, h, hpieces⟩ => ⟨piece, [], h, rfl, hpieces⟩⟩
  simp only [WeightBundles.pack_eq_ok, hone, WeightBundles.packOne_eq_ok]
  constructor
  · rintro ⟨hwidth, hpackable, _, ⟨_, ⟨-, bits, hbits, rfl⟩, rfl⟩, rfl⟩
    exact ⟨hwidth, hpackable, bits, hbits, List.flatten_singleton⟩
  · rintro ⟨hwidth, hpackable, bits, hbits, rfl⟩
    exact ⟨hwidth, hpackable, _, ⟨_, ⟨hbeam, bits, hbits, rfl⟩, rfl⟩, List.flatten_singleton⟩

/-- A vector of weights is written exactly when the same weights are packed in a bundle, its
contents are not too long, and the exponent has four bits where there is one.  Then both have the
same parameter and the same packed weights. -/
theorem encode_iff_pack (width : UInt8) (method : WeightCompression) (exponent : UInt8)
    (weights : List Weight) (more : Bool) (beam : UInt16) (hbeam : beam.toNat < 0x8000) :
    ((∃ encoded,
        (beamWeights ⟨width, .ofMethod method exponent, weights⟩).encode more = .ok encoded) ↔
      (∃ bytes,
        WeightBundles.pack [⟨beam, some exponent, weights⟩] width method = .ok bytes) ∧
      blockLength (contentsLength ⟨width, .ofMethod method exponent, weights⟩) / wordLength
        ≤ 255 ∧
      (method = .blockFloatingPoint → exponent.toNat ≤ 15)) ∧
    ∀ encoded bytes,
      (beamWeights ⟨width, .ofMethod method exponent, weights⟩).encode more = .ok encoded →
      WeightBundles.pack [⟨beam, some exponent, weights⟩] width method = .ok bytes →
      ∃ words param packed zeros,
        encoded = .inline (typeByte .beamWeights more :: words :: method.header width
          :: (param ++ packed) ++ Bytes.zeros zeros) ∧
        bytes = param ++ (Bytes.ofNat 2 beam.toNat ++ packed) ∧
        method.paramLength = .ok param.length ∧
        packed.length = Weight.packedLength weights.length width.toNat := by
  simp only [pack_singleton_eq_ok hbeam]
  refine ⟨⟨?_, ?_⟩, ?_⟩
  · rintro ⟨encoded, hencoded⟩
    obtain ⟨contents, hcontents, block, hblock, -⟩ := encode_eq_ok.mp hencoded
    obtain ⟨hwidth, hpackable, hexponent, bits, hbits, -⟩ := encodeBody_ofMethod.mp hcontents
    refine ⟨⟨_, hwidth, hpackable, bits, hbits, rfl⟩, ?_, hexponent⟩
    rw [← length_encodeBody hcontents]
    exact exists_block_iff.mp ⟨block, hblock⟩
  · rintro ⟨⟨bytes, hwidth, hpackable, bits, hbits, -⟩, hwords, hexponent⟩
    obtain ⟨contents, hcontents⟩ : ∃ contents,
        (⟨width, .ofMethod method exponent, weights⟩ : WeightVector).encodeBody = .ok contents :=
      ⟨_, encodeBody_ofMethod.mpr ⟨hwidth, hpackable, hexponent, bits, hbits, rfl⟩⟩
    rw [← length_encodeBody hcontents] at hwords
    obtain ⟨block, hblock⟩ := exists_block_iff.mpr hwords
    exact ⟨_, encode_eq_ok.mpr ⟨contents, hcontents, block, hblock, rfl⟩⟩
  · rintro encoded bytes hencoded ⟨-, hpackable, bits, hbits, rfl⟩
    obtain ⟨contents, hcontents, block, hblock, rfl⟩ := encode_eq_ok.mp hencoded
    obtain ⟨-, -, -, bits', hbits', rfl⟩ := encodeBody_ofMethod.mp hcontents
    obtain rfl := Except.ok.inj (hbits.symm.trans hbits')
    obtain ⟨rfl, -⟩ := block_eq_ok hblock
    exact ⟨_, _, _, _, rfl, rfl,
      WeightCompression.paramLength_of_isPackable hpackable (some exponent),
      Weight.length_toBytes_pack hbits⟩

namespace WideExponent

/-- Two weights with the least and the greatest parts of nine bits. -/
def edges : List Weight := [⟨-256, 255⟩, ⟨255, -256⟩]

/-- An exponent of four bits and five bytes of weights are the same both ways. -/
theorem encode_iff_pack_fifteen : ∃ words param packed zeros,
    (beamWeights ⟨9, .ofMethod .blockFloatingPoint 15, edges⟩).encode false =
      .ok (.inline (1 :: words :: 0x91 :: (param ++ packed) ++ Bytes.zeros zeros)) ∧
    WeightBundles.pack [⟨0x7fff, some 15, edges⟩] 9 .blockFloatingPoint =
      .ok (param ++ ([0x7f, 0xff] ++ packed)) ∧ param.length = 1 ∧ packed.length = 5 := by
  obtain ⟨hiff, hsame⟩ := encode_iff_pack 9 .blockFloatingPoint 15 edges false 0x7fff (by decide)
  have hbytes : WeightBundles.pack [⟨0x7fff, some 15, edges⟩] 9 .blockFloatingPoint =
      .ok [15, 0x7f, 0xff, 0x80, 0x3f, 0xdf, 0xf0, 0] := by decide
  obtain ⟨encoded, hencoded⟩ := hiff.mpr ⟨⟨_, hbytes⟩, by decide, by decide⟩
  obtain ⟨words, param, packed, zeros, rfl, hparts, hparam, hpacked⟩ :=
    hsame encoded _ hencoded hbytes
  exact ⟨words, param, packed, zeros, hencoded, hparts ▸ hbytes, (Except.ok.inj hparam).symm,
    hpacked⟩

/-- An exponent of five bits is refused in a vector, and becomes zero in a bundle. -/
theorem pack_sixteen :
    (beamWeights ⟨9, .ofMethod .blockFloatingPoint 16, edges⟩).encode false =
      .error (.tooWide .exponent 16 4) ∧
    WeightBundles.pack [⟨1, some 16, edges⟩] 9 .blockFloatingPoint =
      .ok [0, 0, 1, 0x80, 0x3f, 0xdf, 0xf0, 0] := by
  decide

end WideExponent

end WeightVector

end OpenFronthaul
