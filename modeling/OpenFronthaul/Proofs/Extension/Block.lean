import OpenFronthaul.Proofs.Steps
import OpenFronthaul.Proofs.Wire.Bytes

/-!
# Blocks are read as they are written

The start of a block says what it was made with, whatever follows the block
(`Opening.parse_typeByte`), and the contents of a short extension lie between its start and fewer
than four zeros (`block_eq_ok`).
-/

namespace OpenFronthaul.Extension

variable {kind : ExtensionKind} {more : Bool} {contents bytes : Bytes}

lemma alignUp_wordLength (n : ℕ) : alignUp n wordLength = (n + 3) / 4 * 4 :=
  alignUp_two_pow n 2

lemma toNat_typeByte (kind : ExtensionKind) (more : Bool) :
    (typeByte kind more).toNat = more.toNat * 128 + kind.code := by
  have := kind.code_lt
  have := more.toNat_lt
  rw [typeByte, UInt8.toNat_ofNat', Nat.mod_eq_of_lt (by omega)]

/-- The start of a block is read as it was written. -/
lemma Opening.parse_typeByte (kind : ExtensionKind) (more : Bool) {words : ℕ} (hpos : 0 < words)
    (hlt : words < 256 ^ kind.lengthFieldSize) (rest : Bytes) :
    Opening.parse (typeByte kind more :: (Bytes.ofNat kind.lengthFieldSize words ++ rest)) =
      .ok ⟨more, kind, words * wordLength, 1 + kind.lengthFieldSize⟩ := by
  have hcode := kind.code_lt
  have hmod : (typeByte kind more).toNat % 128 = kind.code := by
    rw [toNat_typeByte]
    omega
  have hmore : decide (128 ≤ (typeByte kind more).toNat) = more := by
    rw [toNat_typeByte]
    cases more
    · simpa using hcode
    · simp
  have hwords : Bytes.toNat ((Bytes.ofNat kind.lengthFieldSize words ++ rest).take
      kind.lengthFieldSize) = words := by
    rw [List.take_append_of_le_length (by simp), List.take_of_length_le (by simp),
      Bytes.toNat_ofNat, Nat.mod_eq_of_lt hlt]
  simp only [Opening.parse, hmod, ExtensionKind.ofCode?_code, hwords, hmore]
  rw [if_neg (by simp), if_neg (by omega)]
  rfl

/-- A block of contents has its start in front of them and zeros behind. -/
lemma block_eq_ok (h : block kind more contents = .ok bytes) :
    bytes = typeByte kind more :: UInt8.ofNat (blockLength contents.length / wordLength) :: contents
        ++ Bytes.zeros (blockLength contents.length - (2 + contents.length)) ∧
      blockLength contents.length / wordLength ≤ 255 := by
  rw [block, guard_eq_ok, pure_eq_ok] at h
  exact ⟨h.2.symm, by have := h.1; unfold blockLength; omega⟩

lemma blockLength_eq (n : ℕ) : blockLength n = (n + 5) / 4 * 4 := by
  rw [blockLength, alignUp_wordLength]
  omega

lemma length_block (h : block kind more contents = .ok bytes) :
    bytes.length = blockLength contents.length := by
  obtain ⟨rfl, -⟩ := block_eq_ok h
  have := blockLength_eq contents.length
  simp only [List.length_append, List.length_cons, Bytes.length_zeros]
  omega

/-! ## Beams -/

lemma checkBeam_eq_ok {beam : UInt16} : checkBeam beam = .ok () ↔ beam.toNat < 0x8000 := by
  rw [checkBeam, guard_eq_ok, pure_eq_ok, and_iff_left rfl]
  omega

lemma encodeBeams_eq_ok {beams : List UInt16} (h : encodeBeams beams = .ok bytes) :
    (bytes = beams.flatMap fun beam => Bytes.ofNat 2 beam.toNat) ∧
      ∀ beam ∈ beams, beam.toNat < 0x8000 := by
  rw [encodeBeams, bind_eq_ok] at h
  obtain ⟨⟨⟩, hcheck, hbytes⟩ := h
  rw [forM_eq_ok] at hcheck
  exact ⟨(pure_eq_ok.mp hbytes).symm, fun beam hbeam => checkBeam_eq_ok.mp (hcheck beam hbeam)⟩

lemma length_encodeBeams {beams : List UInt16} (h : encodeBeams beams = .ok bytes) :
    bytes.length = beams.length * 2 := by
  obtain ⟨rfl, -⟩ := encodeBeams_eq_ok h
  simp [List.length_flatMap]

/-- A beam of fifteen bits is read as it was written. -/
lemma beamAt_ofNat {beam : UInt16} (h : beam.toNat < 0x8000) (rest : Bytes) :
    beamAt (Bytes.ofNat 2 beam.toNat ++ rest) = beam := by
  have hvalue : beam.toNat % 256 ^ 2 % 0x8000 = beam.toNat := by omega
  rw [beamAt, List.take_append_of_le_length (by simp), List.take_of_length_le (by simp),
    Bytes.toNat_ofNat, hvalue, UInt16.ofNat_toNat]

/-- Beams are read as they were written. -/
lemma beamsAt_encodeBeams {beams : List UInt16} (h : encodeBeams beams = .ok bytes)
    (rest : Bytes) : beamsAt beams.length (bytes ++ rest) = beams := by
  obtain ⟨rfl, hlt⟩ := encodeBeams_eq_ok h
  clear h
  induction beams with
  | nil => rfl
  | cons beam beams ih =>
    obtain ⟨hbeam, hbeams⟩ := List.forall_mem_cons.mp hlt
    rw [List.flatMap_cons, List.length_cons, beamsAt, List.append_assoc, beamAt_ofNat hbeam,
      List.drop_append_of_le_length (by simp), List.drop_eq_nil_of_le (by simp), List.nil_append,
      ih hbeams]

end OpenFronthaul.Extension
