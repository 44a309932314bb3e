import OpenFronthaul.Extension.Beams
import OpenFronthaul.Extension.Modulation
import OpenFronthaul.Extension.PrbGroups
import OpenFronthaul.Extension.Precoding
import OpenFronthaul.Extension.Scalar
import OpenFronthaul.Proofs.Extension.Block

/-!
# Contents of short extensions: whole bytes

For each extension whose fields lie in whole bytes: what its writer accepts, its reader gives back,
whatever follows the contents.
-/

namespace OpenFronthaul

open Extension

variable {contents : Bytes} (rest : Bytes)

/-! ## Single values -/

lemma AntennaMask.parseBody_append (mask : UInt16) :
    parseBody (encodeBody mask ++ rest) = .ok mask := by
  rw [parseBody, require_of_le (by simp [encodeBody]), ok_bind, encodeBody, numberAt_ofNat,
    ofNat_toNat_mod]
  rfl

lemma Regularization.parseBody_append (factor : Int16) :
    parseBody (encodeBody factor ++ rest) = .ok factor := by
  rw [parseBody, require_of_le (by simp [encodeBody]), ok_bind, encodeBody, numberAt_ofNat,
    ofNat_toNat_mod]
  rfl

lemma Technology.parseBody_append (technology : Technology) :
    parseBody (technology.encodeBody ++ rest) = .ok technology := by
  rw [parseBody, require_of_le (by simp [encodeBody]), ok_bind]
  cases technology <;> rfl

lemma ModulationScaling.length_encodeBody {m : ModulationScaling}
    (h : m.encodeBody = .ok contents) : contents.length = 2 := by
  rw [encodeBody, guard_eq_ok, pure_eq_ok] at h
  rw [← h.2, Bytes.length_ofNat]

lemma ModulationScaling.parseBody_append {m : ModulationScaling}
    (h : m.encodeBody = .ok contents) : parseBody (contents ++ rest) = .ok m := by
  rw [encodeBody, guard_eq_ok, pure_eq_ok] at h
  obtain ⟨hscaler, rfl⟩ := h
  have hshift := m.shifted.toNat_lt
  rw [parseBody, require_of_le (by simp), ok_bind, numberAt_ofNat, Nat.mod_eq_of_lt (by omega)]
  have hshifted : decide (0x8000 ≤ m.shifted.toNat * 0x8000 + m.scaler.toNat) = m.shifted := by
    cases m.shifted
    · simp
      omega
    · simp
  have hmod : (m.shifted.toNat * 0x8000 + m.scaler.toNat) % 0x8000 = m.scaler.toNat := by omega
  dsimp only
  rw [hshifted, hmod, UInt16.ofNat_toNat]
  rfl

/-! ## Groups of resource blocks -/

namespace PrbGroups

/-- A size is found again by its code. -/
lemma sizeOf_codeOf {size code : ℕ} (h : codeOf size = .ok code) :
    sizeOf code = .ok size ∧ code < 8 := by
  rw [codeOf] at h
  split at h
  case h_1 index hindex =>
    obtain rfl := pure_eq_ok.mp h
    obtain ⟨hlt, hsize, -⟩ := List.idxOf?_eq_some_iff.mp hindex
    have hlength : sizes.length = 6 := rfl
    refine ⟨?_, by omega⟩
    rw [sizeOf, List.getElem?_eq_getElem hlt, hsize]
    rfl
  case h_2 => cases h

lemma length_encodeBody {g : PrbGroups} (h : g.encodeBody = .ok contents) :
    contents.length = 6 := by
  simp only [encodeBody, bind_eq_ok, check_eq_ok, pure_eq_ok] at h
  obtain ⟨code, -, -, -, rfl⟩ := h
  simp

lemma parseBody_append {g : PrbGroups} (h : g.encodeBody = .ok contents) :
    parseBody (contents ++ rest) = .ok g := by
  simp only [encodeBody, bind_eq_ok, check_eq_ok, pure_eq_ok] at h
  obtain ⟨code, hcode, hgroups, hsymbols, rfl⟩ := h
  obtain ⟨hsize, hlt⟩ := sizeOf_codeOf hcode
  have hword : (code * 0x10000000 + g.groupMask.toNat) % 256 ^ 4 =
      code * 0x10000000 + g.groupMask.toNat := Nat.mod_eq_of_lt (by omega)
  have hdiv : (code * 0x10000000 + g.groupMask.toNat) / 0x10000000 % 8 = code := by omega
  have hmod : (code * 0x10000000 + g.groupMask.toNat) % 0x10000000 = g.groupMask.toNat := by omega
  have hmask : g.symbolMask.toNat % 256 ^ 2 % 0x4000 = g.symbolMask.toNat := by omega
  rw [parseBody, require_of_le (by simp; omega), ok_bind, List.append_assoc, numberAt_ofNat,
    numberAt_append_ofNat _ (by simp), hword]
  dsimp only
  rw [hdiv, hsize, ok_bind, hmod, hmask, UInt8.ofNat_toNat, UInt32.ofNat_toNat,
    UInt16.ofNat_toNat]
  rfl

end PrbGroups

/-! ## Precoding -/

namespace Precoding

lemma checkNibble_eq_ok {field : WireField} {value : UInt8} :
    checkNibble field value = .ok () ↔ value.toNat < 16 := by
  rw [checkNibble, guard_eq_ok, pure_eq_ok, and_iff_left rfl]
  omega

lemma toNat_nibbles {high low : UInt8} (hhigh : high.toNat < 16) (hlow : low.toNat < 16) :
    (nibbles high low).toNat = high.toNat * 16 + low.toNat := by
  rw [nibbles, UInt8.toNat_ofNat', Nat.mod_eq_of_lt (by omega)]

/-- The first layer is read as it was written, from behind the place of the layer. -/
lemma parseFirst_append {first : FirstLayer} {beams : Bytes} (place : Bytes)
    (hplace : place.length = 2)
    (hscheme : first.scheme.toNat < 16) (hmask : first.crsReMask.toNat < 4096)
    (hsymbol : first.crsSymbol.toNat < 16) (hbeams : encodeBeams first.beams = .ok beams) :
    parseFirst (place ++ (Bytes.ofNat 2 (first.scheme.toNat * 4096 + first.crsReMask.toNat)
      ++ (UInt8.ofNat (first.crsShift.toNat * 128 + first.crsSymbol.toNat) :: 0 :: (beams ++ rest))))
      first.beams.length = .ok first := by
  have hlength := length_encodeBeams hbeams
  have hshift := first.crsShift.toNat_lt
  have hword : (first.scheme.toNat * 4096 + first.crsReMask.toNat) % 256 ^ 2 =
      first.scheme.toNat * 4096 + first.crsReMask.toNat := Nat.mod_eq_of_lt (by omega)
  have hdiv : (first.scheme.toNat * 4096 + first.crsReMask.toNat) / 4096 = first.scheme.toNat := by
    omega
  have hmod : (first.scheme.toNat * 4096 + first.crsReMask.toNat) % 4096 =
      first.crsReMask.toNat := by omega
  have hsignals : (UInt8.ofNat (first.crsShift.toNat * 128 + first.crsSymbol.toNat)).toNat =
      first.crsShift.toNat * 128 + first.crsSymbol.toNat := by
    rw [UInt8.toNat_ofNat', Nat.mod_eq_of_lt (by omega)]
  have hshifted : decide (128 ≤ first.crsShift.toNat * 128 + first.crsSymbol.toNat) =
      first.crsShift := by
    cases first.crsShift
    · simp
      omega
    · simp
  have hlow : (first.crsShift.toNat * 128 + first.crsSymbol.toNat) % 16 =
      first.crsSymbol.toNat := by omega
  have hdrop : (place ++ (Bytes.ofNat 2 (first.scheme.toNat * 4096 + first.crsReMask.toNat)
      ++ (UInt8.ofNat (first.crsShift.toNat * 128 + first.crsSymbol.toNat) :: 0
        :: (beams ++ rest)))).drop 6 = beams ++ rest := by
    rw [List.drop_append, List.drop_eq_nil_of_le (by omega), hplace, List.nil_append]
    rfl
  rw [parseFirst, require_of_le (by simp; omega), ok_bind, numberAt_append_ofNat _ hplace, hword,
    ← List.append_assoc, byteAt_append_cons _ (by simp [hplace]), hsignals, List.append_assoc, hdrop,
    beamsAt_encodeBeams hbeams]
  dsimp only
  rw [hdiv, hmod, hshifted, hlow, UInt8.ofNat_toNat, UInt16.ofNat_toNat, UInt8.ofNat_toNat]
  rfl

/-- Layers are told apart by the length of the extension. -/
lemma parseBody_append {p : Precoding} (h : p.encodeBody = .ok contents) :
    parseBody (contents ++ rest) (blockLength contents.length / wordLength) = .ok p ∧
      p.wireLength = blockLength contents.length := by
  obtain ⟨⟨codebook, id, count⟩, first⟩ := p
  simp only [encodeBody, bind_eq_ok] at h
  obtain ⟨_, hid, _, hcount, h⟩ := h
  rw [checkNibble_eq_ok] at hid hcount
  have hplace := toNat_nibbles hid hcount
  have hdiv : (id.toNat * 16 + count.toNat) / 16 = id.toNat := by omega
  have hmod : (id.toNat * 16 + count.toNat) % 16 = count.toNat := by omega
  cases first with
  | none =>
    -- a further layer is its place alone, and takes one word
    obtain rfl := pure_eq_ok.mp h
    have hlength : blockLength ([codebook, nibbles id count] : Bytes).length = 4 := by
      simp [blockLength_eq]
    refine ⟨?_, hlength.symm⟩
    rw [hlength, parseBody, require_of_le (by simp), ok_bind]
    simp only [List.cons_append, byteAt_cons_succ, byteAt_cons_zero, hplace, hdiv, hmod,
      UInt8.ofNat_toNat]
    rfl
  | some first =>
    simp only [bind_eq_ok, check_eq_ok, pure_eq_ok] at h
    obtain ⟨_, hscheme, _, hsymbol, hmask, hnumber, beams, hbeams, rfl⟩ := h
    rw [checkNibble_eq_ok] at hscheme hsymbol
    have hlength := length_encodeBeams hbeams
    have hfirst := parseFirst_append rest [codebook, nibbles id count] rfl hscheme (by omega)
      hsymbol hbeams
    have hshape : first.beams.length = 1 ∨ first.beams.length = 3 := by omega
    have htotal : ([codebook, nibbles id count] ++ Bytes.ofNat 2 (first.scheme.toNat * 4096
        + first.crsReMask.toNat) ++ [UInt8.ofNat (first.crsShift.toNat * 128
          + first.crsSymbol.toNat), 0] ++ beams).length = 6 + first.beams.length * 2 := by
      simp only [List.length_append, List.length_cons, List.length_nil, Bytes.length_ofNat]
      omega
    rw [htotal, blockLength_eq, wireLength]
    simp only [List.append_assoc, List.cons_append, List.nil_append] at hfirst ⊢
    rw [parseBody, require_of_le (by simp), ok_bind]
    simp only [byteAt_cons_succ, byteAt_cons_zero, hplace, hdiv, hmod, UInt8.ofNat_toNat]
    -- one beam for two antennas, three for four
    rcases hshape with hone | hthree
    · rw [hone] at hfirst ⊢
      exact ⟨by rw [wordLength, hfirst]; rfl, by simp⟩
    · rw [hthree] at hfirst ⊢
      exact ⟨by rw [wordLength, hfirst]; rfl, by simp⟩

end Precoding

/-! ## Beam groups -/

namespace BeamGroup

/-- The first byte has the type of the group and the number of antennas. -/
lemma toNat_head (type : BeamGroupType) {antennas : UInt8} (h : antennas.toNat ≤ 0x3f) :
    (UInt8.ofNat (type.code * 64 + antennas.toNat)).toNat = type.code * 64 + antennas.toNat := by
  have hcode : type.code ≤ 2 := by cases type <;> decide
  rw [UInt8.toNat_ofNat', Nat.mod_eq_of_lt (by omega)]

/-- A list without a beam is one byte long; there are zeros behind it then. -/
lemma parseBody_append {g : BeamGroup} (h : g.encodeBody = .ok contents)
    (hrest : 2 ≤ (contents ++ rest).length) :
    parseBody (contents ++ rest) = .ok (g, contents.length) := by
  obtain ⟨type, antennas, beams⟩ := g
  simp only [encodeBody, check_eq_ok] at h
  obtain ⟨hantennas, h⟩ := h
  have hhead := toNat_head type (Nat.le_of_not_lt hantennas)
  have hdiv : (type.code * 64 + antennas.toNat) / 64 = type.code := by omega
  have hmod : (type.code * 64 + antennas.toNat) % 64 = antennas.toNat := by omega
  have hcode : BeamGroupType.ofCode? type.code = some type := by cases type <;> rfl
  have hbyte : ∀ tail : Bytes,
      byteAt (UInt8.ofNat (type.code * 64 + antennas.toNat) :: tail) 0 =
        type.code * 64 + antennas.toNat := fun tail => hhead
  cases type with
  | vectorList =>
    simp only [check_eq_ok, bind_eq_ok, pure_eq_ok, not_not] at h
    obtain ⟨hnumber, bytes, hbytes, rfl⟩ := h
    have hlength := length_encodeBeams hbytes
    have hread := beamsAt_encodeBeams hbytes rest
    rw [hnumber] at hlength hread
    rw [parseBody, require_of_le hrest, ok_bind, List.cons_append, hbyte]
    dsimp only
    rw [hdiv, hcode]
    dsimp only
    rw [hmod, require_of_le (by simp; omega), ok_bind, List.drop_one, List.tail_cons, hread,
      UInt8.ofNat_toNat, List.length_cons, hlength, Nat.add_comm]
    rfl
  | common | matrix =>
    simp only [check_eq_ok, pure_eq_ok, Bool.not_eq_true', Bool.not_eq_false,
      List.isEmpty_iff] at h
    obtain ⟨rfl, rfl⟩ := h
    rw [parseBody, require_of_le hrest, ok_bind, List.cons_append, hbyte]
    dsimp only
    rw [hdiv, hcode]
    dsimp only
    rw [hmod, UInt8.ofNat_toNat]
    rfl

end BeamGroup

end OpenFronthaul
