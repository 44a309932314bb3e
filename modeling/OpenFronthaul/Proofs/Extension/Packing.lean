import OpenFronthaul.Extension.Bundles
import OpenFronthaul.Proofs.Extension.PackedContents

/-!
# Bundles of weights are unpacked as they were packed

Bundles lie one behind another without a mark between them.  A reader that knows the number of
weights in a bundle knows its length, and finds the next one behind it, so bundles with as many
weights each come back as they were packed, up to exponents that need more than four bits.  Beams
alone come back as they were written, whatever number of weights the reader goes by
(`WeightBundles.bundles_roundTrip`).
-/

namespace OpenFronthaul

open Extension

/-! ## Weights -/

namespace Weight

variable {width : ℕ}

/-- Both parts of a weight can be told in so many bits. -/
@[mk_iff]
structure Fits (width : ℕ) (weight : Weight) : Prop where
  le_re : -2 ^ (width - 1) ≤ weight.re
  re_lt : weight.re < 2 ^ (width - 1)
  le_im : -2 ^ (width - 1) ≤ weight.im
  im_lt : weight.im < 2 ^ (width - 1)

instance (width : ℕ) : DecidablePred (Fits width) := fun weight =>
  decidable_of_iff _ (fits_iff width weight).symm

/-- Weights are packed exactly when all of them fit. -/
lemma exists_pack_iff {weights : List Weight} :
    (∃ bits, pack width weights = .ok bits) ↔ ∀ weight ∈ weights, weight.Fits width := by
  induction weights with
  | nil => exact ⟨fun _ => nofun, fun _ => ⟨[], rfl⟩⟩
  | cons weight weights ih =>
    rw [List.forall_mem_cons, ← ih]
    constructor
    · rintro ⟨bits, h⟩
      obtain ⟨front, back, rest, hre, him, hrest, -⟩ := pack_cons h
      obtain ⟨⟨hlow, hhigh⟩, -⟩ := packPart_eq_ok hre
      obtain ⟨⟨hlow', hhigh'⟩, -⟩ := packPart_eq_ok him
      exact ⟨⟨hlow, hhigh, hlow', hhigh'⟩, rest, hrest⟩
    · rintro ⟨hfits, rest, hrest⟩
      refine ⟨Bits.ofInt width weight.re ++ Bits.ofInt width weight.im ++ rest, ?_⟩
      rw [pack, packPart_of_range hfits.le_re hfits.re_lt, ok_bind,
        packPart_of_range hfits.le_im hfits.im_lt, ok_bind, hrest]
      rfl

end Weight

namespace WeightCompression

/-- Methods that weights can be packed with have a parameter of known length. -/
lemma paramLength_of_isPackable {method : WeightCompression} (h : method.isPackable = true)
    (exponent : Option UInt8) :
    method.paramLength = .ok (WeightBundles.encodeExponent method exponent).length := by
  cases method with
  | none | blockFloatingPoint => rfl
  | blockScaling | muLaw | beamspace => cases h

end WeightCompression

/-! ## One bundle -/

namespace Bundle

/-- A bundle whose beam has fifteen bits, and whose weights fit. -/
@[mk_iff]
structure Fits (width : UInt8) (b : Bundle) : Prop where
  beam_lt : b.beam.toNat < 0x8000
  weights : ∀ weight ∈ b.weights, weight.Fits width.toNat

instance (width : UInt8) : DecidablePred (Fits width) := fun b =>
  decidable_of_iff _ (fits_iff width b).symm

/-- A bundle as it comes back: under block floating point with an exponent in any case, and without
compression with none. -/
def received (method : WeightCompression) (b : Bundle) : Bundle :=
  { b with exponent := if method = .blockFloatingPoint then some (b.exponent.getD 0) else none }

end Bundle

namespace WeightBundles

variable {width : UInt8} {method : WeightCompression} {b : Bundle} {bytes : Bytes}

/-- The parts of a packed bundle. -/
lemma packOne_eq_ok : packOne width method b = .ok bytes ↔
    b.beam.toNat < 0x8000 ∧ ∃ bits, Weight.pack width.toNat b.weights = .ok bits ∧
      bytes = encodeExponent method b.exponent ++ (Bytes.ofNat 2 b.beam.toNat ++ bits.toBytes) := by
  simp only [packOne, bind_eq_ok, pure_eq_ok, List.append_assoc]
  constructor
  · rintro ⟨⟨⟩, hbeam, bits, hbits, rfl⟩
    exact ⟨checkBeam_eq_ok.mp hbeam, bits, hbits, rfl⟩
  · rintro ⟨hbeam, bits, hbits, rfl⟩
    exact ⟨(), checkBeam_eq_ok.mpr hbeam, bits, hbits, rfl⟩

/-- A bundle is packed exactly when it fits. -/
lemma exists_packOne_iff : (∃ bytes, packOne width method b = .ok bytes) ↔ b.Fits width := by
  rw [Bundle.fits_iff, ← Weight.exists_pack_iff]
  constructor
  · rintro ⟨bytes, h⟩
    obtain ⟨hbeam, bits, hbits, -⟩ := packOne_eq_ok.mp h
    exact ⟨hbeam, bits, hbits⟩
  · rintro ⟨hbeam, bits, hbits⟩
    exact ⟨_, packOne_eq_ok.mpr ⟨hbeam, bits, hbits, rfl⟩⟩

/-- The length of a packed bundle is that which a reader takes it to have. -/
lemma bundleLength_packOne (hpackable : method.isPackable = true)
    (h : packOne width method b = .ok bytes) :
    bundleLength b.weights.length width method = .ok bytes.length := by
  obtain ⟨-, bits, hbits, rfl⟩ := packOne_eq_ok.mp h
  rw [bundleLength, WeightCompression.paramLength_of_isPackable hpackable b.exponent, ok_bind,
    pure_eq_ok, List.length_append, List.length_append, Bytes.length_ofNat,
    Weight.length_toBytes_pack hbits, Nat.add_assoc]

/-- Taking a bundle apart undoes packing it. -/
lemma unpackOne_packOne {paramLength : ℕ} (hwidth : WeightCompression.checkWidth width = .ok ())
    (hpackable : method.isPackable = true) (hparam : method.paramLength = .ok paramLength)
    (hexponent : ∀ exponent ∈ b.exponent, exponent.toNat ≤ 15)
    (h : packOne width method b = .ok bytes) :
    unpackOne b.weights.length width paramLength bytes = .ok (b.received method) := by
  obtain ⟨hbeam, bits, hbits, rfl⟩ := packOne_eq_ok.mp h
  obtain ⟨hpos, hle⟩ := WeightCompression.checkWidth_eq_ok.mp hwidth
  rw [WeightCompression.paramLength_of_isPackable hpackable b.exponent] at hparam
  obtain rfl := Except.ok.inj hparam
  have hunpack := Weight.unpack_pack hpos hle hbits []
  rw [List.append_nil] at hunpack
  have hparts : (encodeExponent method b.exponent ++ (Bytes.ofNat 2 b.beam.toNat
      ++ bits.toBytes)).drop ((encodeExponent method b.exponent).length + 2) = bits.toBytes := by
    rw [← List.append_assoc, List.drop_left' (by rw [List.length_append, Bytes.length_ofNat])]
  rw [unpackOne, List.drop_left, beamAt_ofNat hbeam, hparts, hunpack, ok_bind, pure_eq_ok,
    Bundle.received]
  cases method with
  | none => rfl
  | blockFloatingPoint =>
    -- the exponent is written in four bits of its byte
    have hlow : (b.exponent.getD 0).toNat ≤ 15 := by
      cases hb : b.exponent with
      | none => decide
      | some exponent => exact hexponent exponent hb
    have hmod : (b.exponent.getD 0).toNat % 16 = (b.exponent.getD 0).toNat := by omega
    simp only [encodeExponent, if_true, List.length_singleton, List.singleton_append,
      byteAt_cons_zero, hmod, UInt8.ofNat_toNat]
  | blockScaling | muLaw | beamspace => cases hpackable

/-! ## All bundles -/

/-- Pieces of one length are found again in what they make together. -/
lemma chunks_flatten {length : ℕ} {pieces : List Bytes}
    (h : ∀ piece ∈ pieces, piece.length = length) :
    chunks length pieces.length pieces.flatten = pieces := by
  induction pieces with
  | nil => rfl
  | cons piece pieces ih =>
    obtain ⟨rfl, hpieces⟩ := List.forall_mem_cons.mp h
    rw [List.length_cons, chunks, List.flatten_cons, List.take_left, List.drop_left, ih hpieces]

lemma length_flatten {length : ℕ} {pieces : List Bytes}
    (h : ∀ piece ∈ pieces, piece.length = length) :
    pieces.flatten.length = pieces.length * length := by
  rw [List.length_flatten, List.map_congr_left h, List.map_const', List.sum_replicate,
    smul_eq_mul]

/-- A buffer of pieces of the length of a bundle is taken apart piece by piece. -/
lemma bundles_eq_mapM {e : WeightBundles} {weights paramLength length : ℕ} {pieces : List Bytes}
    (hbeams : e.beamsOnly = false) (hpackable : e.method.isPackable = true)
    (hparam : e.method.paramLength = .ok paramLength)
    (hlength : bundleLength weights e.width e.method = .ok length)
    (hpieces : ∀ piece ∈ pieces, piece.length = length) (hcount : e.count.toNat = pieces.length)
    (hpayload : e.payload.bytes = pieces.flatten) :
    e.bundles weights = pieces.mapM (unpackOne weights e.width paramLength) := by
  have hlong : length * pieces.length ≤ pieces.flatten.length := by
    rw [length_flatten hpieces, Nat.mul_comm]
  rw [bundles, hbeams, if_neg Bool.false_ne_true, hparam, ok_bind]
  dsimp only
  rw [hpackable, if_neg (by decide), hlength, ok_bind, hcount, hpayload, require_of_le hlong,
    ok_bind, chunks_flatten hpieces]

variable {bundlePrbs : UInt8} {account : ℕ} {bundles : List Bundle} {e : WeightBundles}

lemma pack_eq_ok : pack bundles width method = .ok bytes ↔
    WeightCompression.checkWidth width = .ok () ∧ method.isPackable = true ∧
      ∃ pieces, bundles.mapM (packOne width method) = .ok pieces ∧ pieces.flatten = bytes := by
  simp only [pack, bind_eq_ok, check_eq_ok, pure_eq_ok, Bool.not_eq_true', Bool.not_eq_false]
  exact ⟨fun ⟨⟨⟩, h⟩ => h, fun h => ⟨(), h⟩⟩

lemma ofBundles_eq_ok : ofBundles bundlePrbs width method bundles account = .ok e ↔
    bundles.length ≤ 65535 ∧ ∃ payload, pack bundles width method = .ok payload ∧
      { bundlePrbs, method, width, count := UInt16.ofNat bundles.length
        payload := ⟨account, payload⟩ } = e := by
  simp only [ofBundles, bind_eq_ok, check_eq_ok, pure_eq_ok, not_lt]

lemma exists_ofBundles_iff :
    (∃ e, ofBundles bundlePrbs width method bundles account = .ok e) ↔
      (1 ≤ width.toNat ∧ width.toNat ≤ 16) ∧ method.isPackable = true ∧
        bundles.length ≤ 65535 ∧ ∀ b ∈ bundles, b.Fits width := by
  have hall : (∃ pieces, bundles.mapM (packOne width method) = .ok pieces) ↔
      ∀ b ∈ bundles, b.Fits width := by
    simp only [exists_mapM_iff, exists_packOne_iff]
  simp only [ofBundles_eq_ok, pack_eq_ok, WeightCompression.checkWidth_eq_ok]
  constructor
  · rintro ⟨e, hcount, payload, ⟨hwidth, hpackable, pieces, hpieces, -⟩, -⟩
    exact ⟨hwidth, hpackable, hcount, hall.mp ⟨pieces, hpieces⟩⟩
  · rintro ⟨hwidth, hpackable, hcount, hfits⟩
    obtain ⟨pieces, hpieces⟩ := hall.mpr hfits
    exact ⟨_, hcount, _, ⟨hwidth, hpackable, pieces, hpieces, rfl⟩, rfl⟩

/-- Bundles with as many weights each come back as they were packed. -/
lemma bundles_ofBundles {weights : ℕ}
    (h : ofBundles bundlePrbs width method bundles account = .ok e)
    (hweights : ∀ b ∈ bundles, b.weights.length = weights)
    (hexponents : ∀ b ∈ bundles, ∀ exponent ∈ b.exponent, exponent.toNat ≤ 15) :
    ∃ length, bundleLength weights width method = .ok length ∧
      e.payload.bytes.length = bundles.length * length ∧
      e.bundles weights = .ok (bundles.map (Bundle.received method)) := by
  obtain ⟨hcount, _, hpack, rfl⟩ := ofBundles_eq_ok.mp h
  obtain ⟨hwidth, hpackable, pieces, hpieces, rfl⟩ := pack_eq_ok.mp hpack
  have hpacked := mapM_eq_ok.mp hpieces
  obtain ⟨paramLength, hparam⟩ : ∃ paramLength, method.paramLength = .ok paramLength :=
    ⟨_, WeightCompression.paramLength_of_isPackable hpackable none⟩
  obtain ⟨length, hlength⟩ : ∃ length, bundleLength weights width method = .ok length :=
    ⟨_, by rw [bundleLength, hparam]; rfl⟩
  -- the reader goes by one length for all pieces, and each of them has it
  have hpiece : ∀ piece ∈ pieces, piece.length = length := by
    intro piece hpiece
    obtain ⟨b, hb, hpackOne⟩ := exists_of_mem_right hpacked hpiece
    have hone := bundleLength_packOne hpackable hpackOne
    rw [hweights b hb, hlength] at hone
    exact (Except.ok.inj hone).symm
  refine ⟨length, hlength, by rw [length_flatten hpiece, hpacked.length_eq], ?_⟩
  have hcount' : (UInt16.ofNat bundles.length).toNat = pieces.length := by
    rw [UInt16.toNat_ofNat', Nat.mod_eq_of_lt (by omega), hpacked.length_eq]
  rw [bundles_eq_mapM rfl hpackable hparam hlength hpiece hcount' rfl, mapM_eq_ok,
    List.forall₂_map_right_iff]
  refine (forall₂_imp_of_mem hpacked fun b hb piece _ hpackOne => ?_).flip
  rw [← hweights b hb]
  exact unpackOne_packOne hwidth hpackable hparam (hexponents b hb) hpackOne

/-- Beams alone come back as they were written, without weights. -/
lemma bundles_ofBeams {beams : List UInt16} (h : ofBeams bundlePrbs beams account = .ok e)
    (weights : ℕ) : e.bundles weights = .ok (beams.map fun beam => { beam }) := by
  simp only [ofBeams, bind_eq_ok, check_eq_ok, pure_eq_ok] at h
  obtain ⟨payload, hpayload, hcount, rfl⟩ := h
  have hcount' : (UInt16.ofNat beams.length).toNat = beams.length := by
    rw [UInt16.toNat_ofNat', Nat.mod_eq_of_lt (by omega)]
  have hbeams := beamsAt_encodeBeams hpayload []
  rw [List.append_nil] at hbeams
  rw [WeightBundles.bundles, if_pos rfl, hcount',
    require_of_le (length_encodeBeams hpayload).ge, ok_bind, hbeams]
  rfl

/-- Bundles are accepted exactly when the width and the method are known, there are not too many of
them, and all of them fit.  Those that have as many weights each come back in their order, out of a
buffer that has exactly their bytes, and so do beams alone. -/
theorem bundles_roundTrip (bundlePrbs width : UInt8) (method : WeightCompression)
    (account weights : ℕ) (bundles : List Bundle) (beams : List UInt16) :
    ((∃ e, ofBundles bundlePrbs width method bundles account = .ok e) ↔
      (1 ≤ width.toNat ∧ width.toNat ≤ 16) ∧ (method = .none ∨ method = .blockFloatingPoint) ∧
        bundles.length ≤ 65535 ∧ ∀ b ∈ bundles, b.Fits width) ∧
    (∀ e, ofBundles bundlePrbs width method bundles account = .ok e →
      (∀ b ∈ bundles, b.weights.length = weights) →
      (∀ b ∈ bundles, ∀ exponent ∈ b.exponent, exponent.toNat ≤ 15) →
      ∃ length, bundleLength weights width method = .ok length ∧
        e.payload.bytes.length = bundles.length * length ∧
        e.bundles weights = .ok (bundles.map (Bundle.received method))) ∧
    ∀ e, ofBeams bundlePrbs beams account = .ok e →
      e.bundles weights = .ok (beams.map fun beam => { beam }) := by
  have hmethod : (method = .none ∨ method = .blockFloatingPoint) ↔ method.isPackable = true := by
    cases method <;> decide
  rw [hmethod]
  exact ⟨exists_ofBundles_iff, fun e h hweights hexponents =>
    bundles_ofBundles h hweights hexponents, fun e h => bundles_ofBeams h weights⟩

namespace EdgeWeights

/-- Two bundles of two weights with the least and the greatest parts of nine bits. -/
def edges : List Bundle :=
  [⟨0x7fff, some 15, [⟨-256, 255⟩, ⟨255, -256⟩]⟩, ⟨0, none, [⟨-1, 0⟩, ⟨1, -255⟩]⟩]

/-- The bundles take eight bytes each, and come back with an exponent each; so do two beams. -/
theorem bundles_roundTrip_edges :
    (∃ e, ofBundles 4 9 .blockFloatingPoint edges 1 = .ok e ∧ e.payload.bytes.length = 2 * 8 ∧
      e.bundles 2 = .ok
        [⟨0x7fff, some 15, [⟨-256, 255⟩, ⟨255, -256⟩]⟩, ⟨0, some 0, [⟨-1, 0⟩, ⟨1, -255⟩]⟩]) ∧
    ∃ e, ofBeams 4 [0x7fff, 1] 1 = .ok e ∧
      e.bundles 2 = .ok [{ beam := 0x7fff }, { beam := 1 }] := by
  obtain ⟨haccepted, hbundles, hbeams⟩ :=
    bundles_roundTrip 4 9 .blockFloatingPoint 1 2 edges [0x7fff, 1]
  obtain ⟨e, he⟩ := haccepted.mpr ⟨by decide, .inr rfl, by decide, by decide⟩
  obtain ⟨length, hlength, hpayload, hunpacked⟩ := hbundles e he (by decide) (by simp [edges])
  obtain rfl := Except.ok.inj hlength
  exact ⟨⟨e, he, hpayload, hunpacked⟩, _, rfl, hbeams _ rfl⟩

end EdgeWeights

end WeightBundles

end OpenFronthaul
