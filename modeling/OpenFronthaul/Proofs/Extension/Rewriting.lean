import OpenFronthaul.Proofs.Extension.Framing
import OpenFronthaul.Proofs.Extension.RoundTrip

/-!
# What is read of an extension can be written

A reader takes its values from fields of the same width that the writer puts them into, so whatever
it gives passes the checks of the writer, and needs no more room than there was
(`rewritable_of_decode`).  Spare bits, and bytes behind the contents, are lost.
-/

namespace OpenFronthaul

open Extension

/-! ## Weights -/

lemma SampleWidth.ofWire_range (value : ℕ) :
    1 ≤ (ofWire value).toNat ∧ (ofWire value).toNat ≤ 16 := by
  unfold ofWire
  split_ifs with h
  · decide
  · rw [UInt8.toNat_ofNat']
    omega

/-- What is written of a value takes no more room than there is. -/
def WritesWithin (written : Except Error Bytes) (room : ℕ) : Prop :=
  ∃ contents, written = .ok contents ∧ contents.length ≤ room

namespace Weight

variable {width count : ℕ} {reader after : BitReader}

/-- A weight that is read can be packed in as many bits. -/
lemma pack_read? {weight : Weight} (hpos : 0 < width) (hwidth : width ≤ 16)
    (h : read? width reader = some (weight, after)) :
    ∃ front back, packPart width weight.re = .ok front ∧ packPart width weight.im = .ok back := by
  simp only [read?, Option.bind_eq_bind, Option.bind_eq_some_iff, Option.pure_def,
    Option.some.injEq, Prod.mk.injEq, Prod.exists] at h
  obtain ⟨re, middle, hre, im, last, him, rfl, -⟩ := h
  obtain ⟨hlow, hhigh⟩ := BitReader.readSigned?_eq_some hpos hre
  obtain ⟨hlow', hhigh'⟩ := BitReader.readSigned?_eq_some hpos him
  refine ⟨_, _, packPart_of_range ?_ ?_, packPart_of_range ?_ ?_⟩
  all_goals dsimp only
  · rwa [bmod_part hwidth hlow hhigh]
  · rwa [bmod_part hwidth hlow hhigh]
  · rwa [bmod_part hwidth hlow' hhigh']
  · rwa [bmod_part hwidth hlow' hhigh']

/-- Weights that are read can be packed. -/
lemma pack_readMany {weights : List Weight} (hpos : 0 < width) (hwidth : width ≤ 16)
    (h : readMany width count reader = .ok weights) :
    weights.length = count ∧ ∃ bits, pack width weights = .ok bits := by
  induction count generalizing reader weights with
  | zero =>
    obtain rfl := pure_eq_ok.mp h
    exact ⟨rfl, [], rfl⟩
  | succ count ih =>
    rw [readMany] at h
    rcases hread : read? width reader with _ | ⟨weight, after⟩
    · rw [hread] at h
      cases h
    · simp only [hread, bind_eq_ok, pure_eq_ok] at h
      obtain ⟨others, hothers, rfl⟩ := h
      obtain ⟨hlength, bits, hbits⟩ := ih hothers
      obtain ⟨front, back, hre, him⟩ := pack_read? hpos hwidth hread
      refine ⟨by rw [List.length_cons, hlength], front ++ back ++ bits, ?_⟩
      simp only [pack, hre, him, hbits]
      rfl

end Weight

/-- The parameter of a compression that is read can be written. -/
lemma WeightCoding.encodeParam_parse {method : WeightCompression} {body : Bytes}
    {coding : WeightCoding} (h : parse method body = .ok coding) (hbody : 1 ≤ body.length) :
    coding.method = method ∧ ∃ param, coding.encodeParam = .ok param ∧
      method.paramLength = .ok param.length ∧ 1 + param.length ≤ body.length := by
  cases method with
  | none =>
    obtain rfl := pure_eq_ok.mp h
    exact ⟨rfl, [], rfl, rfl, hbody⟩
  | blockFloatingPoint =>
    simp only [parse, bind_eq_ok, pure_eq_ok, require, guard_eq_ok, not_lt] at h
    obtain ⟨_, ⟨htwo, -⟩, rfl⟩ := h
    refine ⟨rfl, [UInt8.ofNat (byteAt body 1 % 16)], ?_, rfl, htwo⟩
    rw [encodeParam, if_neg]
    · rfl
    · rw [UInt8.toNat_ofNat']
      omega
  | blockScaling | muLaw | beamspace => cases h

/-- A vector that is read has the number of weights that the reader knows, and can be written. -/
lemma WeightVector.encodeBody_parseBody {body : Bytes} {known : Option UInt16}
    {r : WeightVector × ℕ} (h : parseBody body known = .ok r) :
    (∃ count, known = some count ∧ r.1.weights.length = count.toNat) ∧
      WritesWithin r.1.encodeBody body.length := by
  cases known with
  | none =>
    simp only [parseBody, bind_eq_ok] at h
    obtain ⟨_, -, _, -, _, -, h⟩ := h
    cases h
  | some count =>
    simp only [parseBody, bind_eq_ok, pure_eq_ok, require, guard_eq_ok, not_lt] at h
    obtain ⟨_, ⟨hbody, -⟩, method, hmethod, coding, hcoding, length, hlength, _, ⟨hroom, -⟩, weights,
      hweights, rfl⟩ := h
    obtain ⟨hpos, hle⟩ := SampleWidth.ofWire_range (byteAt body 0 / 16)
    obtain ⟨rfl, param, hparam, hparamLength, hoffset⟩ :=
      WeightCoding.encodeParam_parse hcoding hbody
    obtain ⟨hcount, bits, hbits⟩ := Weight.pack_readMany hpos hle hweights
    refine ⟨⟨count, rfl, hcount⟩, ?_⟩
    rw [WritesWithin, encodeBody, WeightCompression.checkWidth_eq_ok.mpr ⟨hpos, hle⟩, ok_bind, hparam,
      ok_bind, hbits]
    refine ⟨_, rfl, ?_⟩
    have hbitsLength := Weight.length_toBytes_pack hbits
    rw [hparamLength] at hlength
    obtain rfl := Except.ok.inj hlength
    rw [hcount] at hbitsLength
    rw [List.length_drop] at hroom
    simp only [List.length_append, List.length_cons, hbitsLength]
    omega

/-! ## Attributes of beams -/

namespace BeamAttributes

variable {code : ℕ} {reader after : BitReader} {p : BeamParameter}

/-- A parameter that is read has the width of its code. -/
lemma check_readParameter (hcode : code < 8) (h : readParameter code reader = .ok (p, after)) :
    p.check = .ok () ∧ p.widthCode.toNat = code ∧ after.position = reader.position + p.bits := by
  rcases hread : reader.read? (BeamParameter.bitsOfCode code) with _ | ⟨value, next⟩
  · rw [readParameter, hread] at h
    cases h
  · simp only [readParameter, hread, pure_eq_ok] at h
    cases h
    obtain ⟨hvalue, hposition⟩ := BitReader.read?_eq_some hread
    have hwidth : (UInt8.ofNat code).toNat = code := by
      rw [UInt8.toNat_ofNat', Nat.mod_eq_of_lt (by omega)]
    have hbits : BeamParameter.bits ⟨UInt8.ofNat code, UInt8.ofNat value⟩ =
        BeamParameter.bitsOfCode code := congrArg BeamParameter.bitsOfCode hwidth
    refine ⟨?_, hwidth, by rw [hbits, hposition]⟩
    have hle : BeamParameter.bitsOfCode code ≤ 8 := by
      unfold BeamParameter.bitsOfCode
      split_ifs <;> omega
    have hpow : 2 ^ BeamParameter.bitsOfCode code ≤ 2 ^ 8 := Nat.pow_le_pow_right (by decide) hle
    have hsame : (UInt8.ofNat value).toNat = value := by
      rw [UInt8.toNat_ofNat', Nat.mod_eq_of_lt (hvalue.trans_le hpow)]
    rw [BeamParameter.check, hwidth, hbits, hsame, if_neg (by omega), if_neg (by omega)]
    rfl

/-- Attributes that are read can be written. -/
lemma encodeBody_parseBody {body : Bytes} {r : BeamAttributes × ℕ} (h : parseBody body = .ok r) :
    WritesWithin r.1.encodeBody body.length := by
  simp only [parseBody, bind_eq_ok, pure_eq_ok, require, guard_eq_ok, not_lt, Prod.exists] at h
  obtain ⟨_, ⟨-, -⟩, azimuth, reader, hazimuth, zenith, reader', hzenith, azimuthWidth, reader'',
    hazimuthWidth, zenithWidth, last, hzenithWidth, _, ⟨hroom, -⟩, rfl⟩ := h
  obtain ⟨hcheck, -, hposition⟩ := check_readParameter (Nat.mod_lt _ (by decide)) hazimuth
  obtain ⟨hcheck', -, hposition'⟩ := check_readParameter (Nat.mod_lt _ (by decide)) hzenith
  obtain ⟨hcheck'', -, hposition''⟩ := check_readParameter (Nat.mod_lt _ (by decide)) hazimuthWidth
  obtain ⟨hcheck₃, -, hposition₃⟩ := check_readParameter (Nat.mod_lt _ (by decide)) hzenithWidth
  generalize ha : BeamAttributes.mk azimuth zenith azimuthWidth zenithWidth _ _ = a
  have hconsumed : last.bytesConsumed = a.bits.toBytes.length := by
    rw [← bytesConsumed_bits a last.rest, BitReader.bytesConsumed, BitReader.bytesConsumed,
      hposition₃, hposition'', hposition', hposition, ← ha]
    rfl
  have hparameters : a.parameters.forM BeamParameter.check = .ok () := by
    rw [forM_eq_ok, ← ha]
    simp [parameters, hcheck, hcheck', hcheck'', hcheck₃]
  have hsidelobes : ¬(7 < a.azimuthSidelobe.toNat ∨ 7 < a.zenithSidelobe.toNat) := by
    rw [← ha]
    simp only [UInt8.toNat_ofNat']
    omega
  rw [hconsumed] at hroom
  rw [WritesWithin, encodeBody, hparameters, ok_bind, if_neg hsidelobes]
  refine ⟨_, rfl, ?_⟩
  simp only [List.length_append, List.length_cons, List.length_nil]
  omega

end BeamAttributes

/-! ## Beams -/

lemma Extension.checkBeam_beamAt (data : Bytes) : checkBeam (beamAt data) = .ok () := by
  rw [checkBeam_eq_ok, beamAt, UInt16.toNat_ofNat']
  omega

/-- Beams that are read can be written. -/
lemma Extension.encodeBeams_beamsAt (count : ℕ) (data : Bytes) :
    (beamsAt count data).length = count ∧
      ∃ bytes, encodeBeams (beamsAt count data) = .ok bytes ∧ bytes.length = count * 2 := by
  have hlength : (beamsAt count data).length = count := by
    induction count generalizing data with
    | zero => rfl
    | succ count ih => rw [beamsAt, List.length_cons, ih]
  have hcheck : ∀ beam ∈ beamsAt count data, checkBeam beam = .ok () := by
    clear hlength
    induction count generalizing data with
    | zero => simp [beamsAt]
    | succ count ih =>
      rw [beamsAt]
      exact List.forall_mem_cons.mpr ⟨checkBeam_beamAt data, ih _⟩
  have hencode : encodeBeams (beamsAt count data) =
      .ok ((beamsAt count data).flatMap fun beam => Bytes.ofNat 2 beam.toNat) := by
    rw [encodeBeams, forM_eq_ok.mpr hcheck]
    rfl
  exact ⟨hlength, _, hencode, by rw [length_encodeBeams hencode, hlength]⟩

/-- A group of beams that is read can be written. -/
lemma BeamGroup.encodeBody_parseBody {body : Bytes} {r : BeamGroup × ℕ}
    (h : parseBody body = .ok r) : WritesWithin r.1.encodeBody body.length := by
  rcases htype : BeamGroupType.ofCode? (byteAt body 0 / 64) with _ | type
  · simp only [parseBody, htype, bind_eq_ok] at h
    obtain ⟨-, -, h⟩ := h
    cases h
  · simp only [parseBody, htype, bind_eq_ok, require, guard_eq_ok, not_lt] at h
    obtain ⟨_, ⟨htwo, -⟩, h⟩ := h
    have hantennas : (UInt8.ofNat (byteAt body 0 % 64)).toNat = byteAt body 0 % 64 := by
      rw [UInt8.toNat_ofNat']
      omega
    have hfits : ¬0x3f < (UInt8.ofNat (byteAt body 0 % 64)).toNat := by omega
    cases type with
    | vectorList =>
      simp only [bind_eq_ok, guard_eq_ok, pure_eq_ok, not_lt] at h
      obtain ⟨_, ⟨hroom, -⟩, rfl⟩ := h
      obtain ⟨hcount, bytes, hbytes, hlength⟩ :=
        encodeBeams_beamsAt (byteAt body 0 % 64) (body.drop 1)
      rw [WritesWithin, encodeBody, if_neg hfits]
      dsimp only
      rw [if_neg (by rw [hcount, hantennas]; exact fun h => h rfl), hbytes]
      refine ⟨_, rfl, ?_⟩
      rw [List.length_cons, hlength]
      omega
    | common | matrix =>
      obtain rfl := pure_eq_ok.mp h
      rw [WritesWithin, encodeBody, if_neg hfits]
      exact ⟨_, rfl, htwo⟩

/-! ## Precoding -/

namespace Precoding

lemma checkNibble_ofNat {field : WireField} {value : ℕ} (h : value < 16) :
    checkNibble field (UInt8.ofNat value) = .ok () := by
  rw [checkNibble_eq_ok, UInt8.toNat_ofNat', Nat.mod_eq_of_lt (by omega)]
  exact h

/-- The first layer can be written behind the place of the layer. -/
lemma encodeBody_parseFirst {body : Bytes} {beams : ℕ} {layer : Layer} {first : FirstLayer}
    (hid : layer.id.toNat < 16) (hcount : layer.count.toNat < 16) (hbeams : beams = 1 ∨ beams = 3)
    (h : parseFirst body beams = .ok first) :
    WritesWithin (encodeBody ⟨layer, some first⟩) body.length := by
  simp only [parseFirst, bind_eq_ok, pure_eq_ok, require, guard_eq_ok, not_lt] at h
  obtain ⟨_, ⟨hroom, -⟩, rfl⟩ := h
  obtain ⟨hlength, bytes, hbytes, hbytesLength⟩ := encodeBeams_beamsAt beams (body.drop 6)
  have hword := numberAt_lt body 2 2
  have hmask : ¬0xfff < (UInt16.ofNat (numberAt body 2 2 % 4096)).toNat := by
    rw [UInt16.toNat_ofNat']
    omega
  rw [WritesWithin, encodeBody, checkNibble_eq_ok.mpr hid, ok_bind, checkNibble_eq_ok.mpr hcount,
    ok_bind]
  dsimp only
  rw [checkNibble_ofNat (by omega), ok_bind, checkNibble_ofNat (Nat.mod_lt _ (by decide)), ok_bind,
    if_neg hmask, if_neg (by rw [hlength]; omega), hbytes]
  refine ⟨_, rfl, ?_⟩
  simp only [List.length_append, List.length_cons, List.length_nil, Bytes.length_ofNat, hbytesLength]
  omega

/-- Precoding that is read can be written. -/
lemma encodeBody_parseBody {body : Bytes} {words : ℕ} {p : Precoding}
    (h : parseBody body words = .ok p) : WritesWithin p.encodeBody body.length := by
  simp only [parseBody, bind_eq_ok, require, guard_eq_ok, not_lt] at h
  obtain ⟨_, ⟨htwo, -⟩, h⟩ := h
  have hplace := byteAt_lt body 1
  have hid : (UInt8.ofNat (byteAt body 1 / 16)).toNat < 16 := by
    rw [UInt8.toNat_ofNat']
    omega
  have hcount : (UInt8.ofNat (byteAt body 1 % 16)).toNat < 16 := by
    rw [UInt8.toNat_ofNat']
    omega
  split at h
  · obtain rfl := pure_eq_ok.mp h
    rw [WritesWithin, encodeBody, checkNibble_eq_ok.mpr hid, ok_bind, checkNibble_eq_ok.mpr hcount]
    exact ⟨_, rfl, htwo⟩
  · obtain ⟨first, hfirst, hp⟩ := bind_eq_ok.mp h
    obtain rfl := pure_eq_ok.mp hp
    exact encodeBody_parseFirst hid hcount (.inl rfl) hfirst
  · obtain ⟨first, hfirst, hp⟩ := bind_eq_ok.mp h
    obtain rfl := pure_eq_ok.mp hp
    exact encodeBody_parseFirst hid hcount (.inr rfl) hfirst
  · cases h

end Precoding

/-! ## Modulation compression -/

lemma ModulationScaling.encodeBody_parseBody {body : Bytes} {m : ModulationScaling}
    (h : parseBody body = .ok m) : WritesWithin m.encodeBody body.length := by
  simp only [parseBody, bind_eq_ok, pure_eq_ok, require, guard_eq_ok, not_lt] at h
  obtain ⟨_, ⟨htwo, -⟩, rfl⟩ := h
  have hscaler : ¬0x7fff < (UInt16.ofNat (numberAt body 0 2 % 0x8000)).toNat := by
    rw [UInt16.toNat_ofNat']
    omega
  rw [WritesWithin, encodeBody, if_neg hscaler]
  exact ⟨_, rfl, htwo⟩

namespace ModulationSet

variable {reader after : BitReader} {count : ℕ}

/-- A set that is read can be packed. -/
lemma encode_read? {s : ModulationSet} (h : read? reader = some (s, after)) :
    ∃ bits, s.encode = .ok bits := by
  simp only [read?, Option.bind_eq_bind, Option.bind_eq_some_iff, Option.pure_def,
    Option.some.injEq, Prod.mk.injEq, Prod.exists] at h
  obtain ⟨reMask, middle, hmask, shifted, last, -, offset, end', hoffset, rfl, -⟩ := h
  obtain ⟨hmask, -⟩ := BitReader.read?_eq_some hmask
  obtain ⟨hoffset, -⟩ := BitReader.read?_eq_some hoffset
  refine ⟨_, if_neg ?_⟩
  simp only [UInt16.toNat_ofNat']
  omega

/-- Sets that are read can be packed. -/
lemma encodeAll_readMany? {sets : List ModulationSet} (h : readMany? count reader = some sets) :
    sets.length = count ∧ ∃ bits, encodeAll sets = .ok bits := by
  induction count, reader using readMany?.induct generalizing sets with
  | case1 reader =>
    obtain rfl := Option.some.inj h
    exact ⟨rfl, [], rfl⟩
  | case2 reader =>
    simp only [readMany?, Option.bind_eq_bind, Option.bind_eq_some_iff, Option.pure_def,
      Option.some.injEq, Prod.exists] at h
    obtain ⟨s, after, hread, rfl⟩ := h
    obtain ⟨bits, hbits⟩ := encode_read? hread
    refine ⟨rfl, bits ++ Bits.ofNat 4 0, ?_⟩
    rw [encodeAll, hbits]
    rfl
  | case3 count reader ih =>
    simp only [readMany?, Option.bind_eq_bind, Option.bind_eq_some_iff, Option.pure_def,
      Option.some.injEq, Prod.exists] at h
    obtain ⟨s, middle, hs, t, last, ht, _, behind, -, rest, hrest, rfl⟩ := h
    obtain ⟨first, hfirst⟩ := encode_read? hs
    obtain ⟨second, hsecond⟩ := encode_read? ht
    obtain ⟨hlength, bits, hbits⟩ := ih behind hrest
    refine ⟨by rw [List.length_cons, List.length_cons, hlength],
      first ++ second ++ Bits.ofNat 8 0 ++ bits, ?_⟩
    rw [encodeAll, hfirst, ok_bind, hsecond, ok_bind, hbits]
    rfl

/-- Sets that are read can be written: as many as there is room for. -/
lemma encodeBody_parseBody {body : Bytes} {sets : List ModulationSet}
    (h : parseBody body = .ok sets) : WritesWithin (encodeBody sets) body.length := by
  rw [parseBody, guard_eq_ok] at h
  obtain ⟨hroom, h⟩ := h
  rcases hread : readMany? (roomFor body.length) (.ofBytes body) with _ | read
  · rw [hread] at h
    cases h
  · rw [hread] at h
    obtain rfl := pure_eq_ok.mp h
    obtain ⟨hlength, bits, hbits⟩ := encodeAll_readMany? hread
    have hcount : ¬(read.isEmpty ∨ maxSets < read.length) := by
      rw [List.isEmpty_iff_length_eq_zero, hlength]
      unfold roomFor at hroom ⊢
      omega
    rw [WritesWithin, encodeBody, if_neg hcount, hbits]
    refine ⟨_, rfl, ?_⟩
    rw [Bits.length_toBytes, length_encodeAll hbits, hlength]
    unfold roomFor maxSets
    split_ifs <;> omega

end ModulationSet

/-! ## Groups of resource blocks -/

lemma PrbGroups.codeOf_sizeOf {code size : ℕ} (h : sizeOf code = .ok size) :
    size < 256 ∧ ∃ code, codeOf size = .ok code := by
  cases code with
  | zero => cases h
  | succ index =>
    rw [sizeOf] at h
    rcases hsize : sizes[index]? with _ | found
    · rw [hsize] at h
      cases h
    · rw [hsize] at h
      obtain rfl := pure_eq_ok.mp h
      have hmem : found ∈ sizes := List.mem_of_getElem? hsize
      have hall : ∀ size ∈ sizes, size < 256 ∧ (sizes.idxOf? size).isSome = true := by decide
      obtain ⟨hlt, hindex⟩ := hall found hmem
      obtain ⟨place, hplace⟩ := Option.isSome_iff_exists.mp hindex
      refine ⟨hlt, place + 1, ?_⟩
      rw [codeOf, hplace]
      rfl

lemma PrbGroups.encodeBody_parseBody {body : Bytes} {g : PrbGroups} (h : parseBody body = .ok g) :
    WritesWithin g.encodeBody body.length := by
  simp only [parseBody, bind_eq_ok, pure_eq_ok, require, guard_eq_ok, not_lt] at h
  obtain ⟨_, ⟨hsix, -⟩, size, hsize, rfl⟩ := h
  obtain ⟨hlt, code, hcode⟩ := codeOf_sizeOf hsize
  have hsame : (UInt8.ofNat size).toNat = size := by
    rw [UInt8.toNat_ofNat', Nat.mod_eq_of_lt hlt]
  have hgroups : ¬0xfffffff < (UInt32.ofNat (numberAt body 0 4 % 0x10000000)).toNat := by
    rw [UInt32.toNat_ofNat']
    omega
  have hsymbols : ¬0x3fff < (UInt16.ofNat (numberAt body 4 2 % 0x4000)).toNat := by
    rw [UInt16.toNat_ofNat']
    omega
  rw [WritesWithin, encodeBody]
  dsimp only
  rw [hsame, hcode, ok_bind, if_neg hgroups, if_neg hsymbols]
  refine ⟨_, rfl, ?_⟩
  simpa using hsix

/-! ## Bundles of weights -/

namespace WeightBundles

/-- The end of the bundles is found again in a block that is no longer than it must be. -/
lemma delimited_of_payloadLength {e : WeightBundles} {weights : Option UInt16} {words : ℕ}
    (hlength : headerLength ≤ words * wordLength)
    (h : e.payloadLength (words * wordLength - headerLength) weights =
      .ok e.payload.bytes.length) : e.Delimited weights := by
  unfold Delimited
  unfold payloadLength at h ⊢
  split_ifs at h ⊢
  · exact h
  · cases weights with
    | some count => exact h
    | none =>
      -- the bundles take the whole block, so there is nothing to leave out
      have hall : words * wordLength - headerLength = e.payload.bytes.length := pure_eq_ok.mp h
      rw [alignUp_wordLength]
      refine pure_eq_ok.mpr ?_
      unfold wordLength at hlength hall
      omega

/-- Bundles that are read can be written, and end where their reader ends them. -/
lemma encodeHeader_parse {data : Bytes} {words : ℕ} {weights : Option UInt16}
    {r : WeightBundles × ℕ} (hwords : words ≤ 65535)
    (h : parse data (words * wordLength) weights = .ok r) :
    (∀ more, ∃ written, r.1.encodeHeader more = .ok written) ∧ r.1.Delimited weights ∧
      r.1.received = r.1 := by
  obtain ⟨hdata, hlength, method, taken, hmethod, htaken, hpast, rfl⟩ := parse_eq_ok.mp h
  have hpayload : ((data.drop headerLength).take taken).length = taken := by
    rw [List.length_take, List.length_drop]
    omega
  have hwidth : WeightCompression.checkWidth (fixedPart data method).width = .ok () :=
    WeightCompression.checkWidth_eq_ok.mpr (SampleWidth.ofWire_range _)
  have hfits : ¬65535 < alignUp (headerLength + taken) wordLength / wordLength := by
    rw [alignUp_wordLength]
    unfold wordLength at hlength hpast ⊢
    omega
  refine ⟨fun more => ?_, delimited_of_payloadLength hlength ?_, rfl⟩
  · rw [encodeHeader, hwidth, ok_bind]
    dsimp only
    rw [hpayload, if_neg hfits]
    exact ⟨_, rfl⟩
  · dsimp only
    rw [hpayload]
    exact htaken

end WeightBundles

/-! ## All kinds -/

/-- Contents that lie in a block fit a block of their own. -/
lemma WritesWithin.block {written : Except Error Bytes} {room : ℕ} (h : WritesWithin written room)
    (hroom : room + 2 ≤ 255 * wordLength) (kind : ExtensionKind) (more : Bool) :
    ∃ encoded, (do return Encoded.inline (← Extension.block kind more (← written))) =
      .ok encoded := by
  obtain ⟨contents, rfl, hle⟩ := h
  rw [wordLength] at hroom
  have hfits : ¬255 < alignUp (2 + contents.length) wordLength / wordLength := by
    rw [alignUp_wordLength, wordLength]
    omega
  rw [ok_bind, Extension.block, if_neg hfits]
  exact ⟨_, rfl⟩

namespace Extension

variable {data : Bytes} {weights : Option UInt16} {d : Decoded}

/-- The length of a block is as many words as its length field can count. -/
lemma Opening.length_eq {opening : Opening} (h : Opening.parse data = .ok opening) :
    ∃ words < 256 ^ opening.kind.lengthFieldSize, opening.length = words * wordLength ∧
      opening.headerLength = 1 + opening.kind.lengthFieldSize := by
  obtain ⟨first, rest, kind, rfl, -, hlong, -, rfl⟩ := Opening.parse_eq_ok.mp h
  have hlt := Bytes.toNat_lt (rest.take kind.lengthFieldSize)
  rw [List.length_take, Nat.min_eq_left hlong] at hlt
  exact ⟨_, hlt, rfl, rfl⟩

/-- An extension that a reader gets back when it is written. -/
structure Rewritable (e : Extension) (weights : Option UInt16) : Prop where
  encode : ∀ more, ∃ encoded, e.encode more = .ok encoded
  delimited : e.Delimited weights
  received : e.received = e

/-- An extension that is read can be written, and ends where its reader ends it. -/
theorem rewritable_of_decode (h : decode data weights = .ok d) : d.extension.Rewritable weights := by
  obtain ⟨opening, hopening, -, -, hlong, hbody⟩ := decode_eq_ok h
  obtain ⟨words, hwords, hlength, hheader⟩ := Opening.length_eq hopening
  obtain ⟨extension, _, length, consumed⟩ := d
  dsimp only at hbody hlong ⊢
  by_cases hkind : opening.kind = .weightBundles
  · rw [if_pos hkind, hkind, hlength] at hbody
    rw [hkind] at hwords
    simp only [parseBody, bind_eq_ok, pure_eq_ok, Prod.mk.injEq, Prod.exists] at hbody
    obtain ⟨b, _, hb, rfl, -⟩ := hbody
    obtain ⟨hwrites, hdelimited, hreceived⟩ :=
      WeightBundles.encodeHeader_parse (Nat.le_of_lt_succ hwords) hb
    refine ⟨fun more => ?_, hdelimited, congrArg weightBundles hreceived⟩
    obtain ⟨written, hwritten⟩ := hwrites more
    rw [encode, hwritten]
    exact ⟨_, rfl⟩
  · rw [if_neg hkind] at hbody
    have hsize : opening.kind.lengthFieldSize = 1 := by
      cases hopen : opening.kind <;> first | rfl | exact absurd hopen hkind
    generalize hcontents : (data.take opening.length).drop opening.headerLength = body at hbody
    have hroom : body.length + 2 ≤ 255 * wordLength := by
      rw [hsize] at hwords hheader
      rw [← hcontents, List.length_drop, List.length_take, hheader, hlength, wordLength]
      omega
    generalize opening.kind = kind at hbody hkind
    cases kind with
    | weightBundles => exact absurd rfl hkind
    | beamWeights =>
      simp only [parseBody, bind_eq_ok, pure_eq_ok, Prod.mk.injEq, Prod.exists] at hbody
      obtain ⟨v, _, hv, rfl, -⟩ := hbody
      obtain ⟨hdelimited, hwrites⟩ := WeightVector.encodeBody_parseBody hv
      exact ⟨hwrites.block hroom _, hdelimited, rfl⟩
    | beamAttributes =>
      simp only [parseBody, bind_eq_ok, pure_eq_ok, Prod.mk.injEq, Prod.exists] at hbody
      obtain ⟨a, _, ha, rfl, -⟩ := hbody
      exact ⟨(BeamAttributes.encodeBody_parseBody ha).block hroom _, trivial, rfl⟩
    | precoding =>
      simp only [parseBody, bind_eq_ok, pure_eq_ok, Prod.mk.injEq] at hbody
      obtain ⟨p, hp, rfl, -⟩ := hbody
      exact ⟨(Precoding.encodeBody_parseBody hp).block hroom _, trivial, rfl⟩
    | modulationScaling =>
      simp only [parseBody, bind_eq_ok, pure_eq_ok, Prod.mk.injEq] at hbody
      obtain ⟨m, hm, rfl, -⟩ := hbody
      exact ⟨(ModulationScaling.encodeBody_parseBody hm).block hroom _, trivial, rfl⟩
    | modulationSets =>
      simp only [parseBody, bind_eq_ok, pure_eq_ok, Prod.mk.injEq] at hbody
      obtain ⟨sets, hsets, rfl, -⟩ := hbody
      exact ⟨(ModulationSet.encodeBody_parseBody hsets).block hroom _, trivial, rfl⟩
    | prbGroups =>
      simp only [parseBody, bind_eq_ok, pure_eq_ok, Prod.mk.injEq] at hbody
      obtain ⟨g, hg, rfl, -⟩ := hbody
      exact ⟨(PrbGroups.encodeBody_parseBody hg).block hroom _, trivial, rfl⟩
    | beamGroup =>
      simp only [parseBody, bind_eq_ok, pure_eq_ok, Prod.mk.injEq, Prod.exists] at hbody
      obtain ⟨g, _, hg, rfl, -⟩ := hbody
      exact ⟨(BeamGroup.encodeBody_parseBody hg).block hroom _, trivial, rfl⟩
    | antennaMask | regularization | spectrumSharing =>
      simp only [parseBody, bind_eq_ok, pure_eq_ok, Prod.mk.injEq] at hbody
      obtain ⟨value, -, rfl, -⟩ := hbody
      have htwo : 2 + 2 ≤ 255 * wordLength := by decide
      refine ⟨WritesWithin.block ⟨_, rfl, ?_⟩ htwo _, trivial, rfl⟩
      rfl

end Extension

end OpenFronthaul
