import OpenFronthaul.Bits
import OpenFronthaul.Proofs.Wire.Bytes
import Mathlib.Tactic

/-!
# Packed bit strings

A field that was packed is read back by a reader that stands in front of it, and the reader then
stands behind it, whatever follows (`read?_ofNat`, `readSigned?_ofInt`).  Bits that were packed into
bytes come out again with only some bits behind them (`exists_ofBytes_toBytes`).
-/

namespace OpenFronthaul

namespace Bits

/-! ## Numbers -/

lemma toNat_append_singleton (bits : Bits) (bit : Bool) :
    toNat (bits ++ [bit]) = 2 * toNat bits + bit.toNat := by
  simp [toNat]

lemma toNat_append (front back : Bits) :
    toNat (front ++ back) = toNat front * 2 ^ back.length + toNat back := by
  induction back using List.reverseRecOn with
  | nil => simp [toNat]
  | append_singleton back bit ih =>
    rw [← List.append_assoc, toNat_append_singleton, ih, toNat_append_singleton,
      List.length_append, List.length_singleton, pow_succ]
    ring

lemma toNat_singleton (bit : Bool) : toNat [bit] = bit.toNat := by
  simp [toNat]

lemma toNat_lt (bits : Bits) : toNat bits < 2 ^ bits.length := by
  induction bits using List.reverseRecOn with
  | nil => simp [toNat]
  | append_singleton bits bit ih =>
    rw [toNat_append_singleton, List.length_append, List.length_singleton, pow_succ]
    have := bit.toNat_lt
    omega

/-- A number is read back modulo what its bits can hold. -/
lemma toNat_ofNat (width value : ℕ) : toNat (ofNat width value) = value % 2 ^ width := by
  induction width with
  | zero => simp [ofNat, toNat, Nat.mod_one]
  | succ width ih =>
    have hsplit : ofNat (width + 1) value = [value.testBit width] ++ ofNat width value := rfl
    rw [hsplit, toNat_append, toNat_singleton, ih, length_ofNat, Nat.mod_pow_succ, Nat.toNat_testBit,
      Nat.add_comm, Nat.mul_comm (2 ^ width)]

/-- Only the low bits of a number are spelled. -/
lemma ofNat_congr {width m n : ℕ} (h : ∀ i < width, m.testBit i = n.testBit i) :
    ofNat width m = ofNat width n := by
  induction width with
  | zero => rfl
  | succ width ih =>
    rw [ofNat, ofNat, h width (by omega), ih fun i hi => h i (by omega)]

lemma ofNat_mod (width value : ℕ) : ofNat width (value % 2 ^ width) = ofNat width value := by
  refine ofNat_congr fun i hi => ?_
  rw [Nat.testBit_mod_two_pow, decide_eq_true hi, Bool.true_and]

lemma ofNat_zero (width : ℕ) : ofNat width 0 = List.replicate width false := by
  induction width with
  | zero => rfl
  | succ width ih => rw [ofNat, ih, Nat.zero_testBit, List.replicate_succ]

/-- The high bits of a number stand in front of the low ones. -/
lemma ofNat_add (high low value : ℕ) :
    ofNat (high + low) value = ofNat high (value / 2 ^ low) ++ ofNat low value := by
  induction high with
  | zero => rw [Nat.zero_add, ofNat, List.nil_append]
  | succ high ih =>
    rw [Nat.add_right_comm, ofNat, ih, ofNat, List.cons_append, Nat.testBit_div_two_pow]

lemma getElem_ofNat {width value i : ℕ} (h : i < (ofNat width value).length) :
    (ofNat width value)[i] = value.testBit (width - 1 - i) := by
  induction width generalizing i with
  | zero => cases h
  | succ width ih =>
    cases i with
    | zero => rfl
    | succ i =>
      have hi : i < (ofNat width value).length := by simpa using h
      simp only [ofNat, List.getElem_cons_succ, ih hi]
      congr 1
      omega

/-- Bits are spelled again by the number that they spell. -/
lemma ofNat_toNat (bits : Bits) : ofNat bits.length (toNat bits) = bits := by
  induction bits with
  | nil => rfl
  | cons bit bits ih =>
    have hsplit : toNat (bit :: bits) = 2 ^ bits.length * bit.toNat + toNat bits := by
      rw [← List.singleton_append, toNat_append, toNat_singleton, Nat.mul_comm]
    have hlow : ofNat bits.length (toNat (bit :: bits)) = ofNat bits.length (toNat bits) := by
      refine ofNat_congr fun i hi => ?_
      rw [hsplit, Nat.testBit_two_pow_mul_add _ (toNat_lt bits), if_pos hi]
    rw [List.length_cons, ofNat, hlow, ih, hsplit]
    congr 1
    rw [Nat.testBit_two_pow_mul_add _ (toNat_lt bits)]
    cases bit <;> simp

/-! ## Bytes -/

/-- A bit string that is not empty has a first byte, and the other bytes are those of the rest. -/
lemma toBytes_cons (bit : Bool) (rest : Bits) :
    toBytes (bit :: rest) = leadingByte ((bit :: rest).take 8) :: toBytes (rest.drop 7) := by
  have hcount : ((bit :: rest).length + 7) / 8 = ((rest.drop 7).length + 7) / 8 + 1 := by
    rw [List.length_cons, List.length_drop]
    omega
  rw [toBytes, hcount, takeBytes, List.drop_succ_cons]
  rfl

/-- Induction over the bytes of a bit string. -/
lemma byteInduction {motive : Bits → Prop} (nil : motive [])
    (cons : ∀ bit rest, motive (rest.drop 7) → motive (bit :: rest)) (bits : Bits) :
    motive bits := by
  induction hlength : bits.length using Nat.strong_induction_on generalizing bits with
  | _ n ih =>
    cases bits with
    | nil => exact nil
    | cons bit rest =>
      refine cons bit rest (ih (rest.drop 7).length ?_ _ rfl)
      rw [← hlength, List.length_drop, List.length_cons]
      omega

lemma length_toBytes (bits : Bits) : bits.toBytes.length = (bits.length + 7) / 8 := by
  induction bits using byteInduction with
  | nil => rfl
  | cons bit rest ih =>
    rw [toBytes_cons, List.length_cons, ih, List.length_drop, List.length_cons]
    omega

lemma ofBytes_cons (byte : UInt8) (bytes : Bytes) :
    ofBytes (byte :: bytes) = ofNat 8 byte.toNat ++ ofBytes bytes := by
  simp [ofBytes]

lemma ofBytes_append (front back : Bytes) :
    ofBytes (front ++ back) = ofBytes front ++ ofBytes back := by
  simp [ofBytes]

@[simp] lemma length_ofBytes (bytes : Bytes) : (ofBytes bytes).length = 8 * bytes.length := by
  induction bytes with
  | nil => rfl
  | cons byte bytes ih =>
    rw [ofBytes_cons, List.length_append, length_ofNat, ih, List.length_cons]
    omega

/-- Each byte holds eight bits in turn, the most significant one first. -/
lemma getElem_ofBytes {bytes : Bytes} {i : ℕ} (h : i < (ofBytes bytes).length)
    (h' : i / 8 < bytes.length) :
    (ofBytes bytes)[i] = bytes[i / 8].toNat.testBit (7 - i % 8) := by
  induction bytes generalizing i with
  | nil => cases h'
  | cons byte bytes ih =>
    simp only [ofBytes_cons]
    by_cases hi : i < 8
    · rw [List.getElem_append_left (by simpa using hi), getElem_ofNat]
      simp only [Nat.div_eq_of_lt hi, Nat.mod_eq_of_lt hi, List.getElem_cons_zero]
    · have hdiv : i / 8 = (i - 8) / 8 + 1 := by omega
      have hmod : i % 8 = (i - 8) % 8 := by omega
      rw [List.getElem_append_right (by simpa using hi)]
      simp only [hdiv, hmod, List.getElem_cons_succ, length_ofNat]
      exact ih _ (by rw [List.length_cons] at h'; omega)

lemma takeBytes_ofBytes (bytes : Bytes) : takeBytes bytes.length (ofBytes bytes) = bytes := by
  induction bytes with
  | nil => rfl
  | cons byte bytes ih =>
    have hlength : (ofNat 8 byte.toNat).length = 8 := length_ofNat ..
    rw [List.length_cons, takeBytes, ofBytes_cons, List.take_left' hlength,
      List.drop_left' hlength, ih, leadingByte, List.take_left' hlength, toNat_ofNat,
      Nat.mod_eq_of_lt byte.toNat_lt, UInt8.ofNat_toNat]

/-- Bytes that were taken apart are packed again. -/
lemma toBytes_ofBytes (bytes : Bytes) : toBytes (ofBytes bytes) = bytes := by
  have hcount : ((ofBytes bytes).length + 7) / 8 = bytes.length := by
    rw [length_ofBytes]
    omega
  rw [toBytes, hcount, takeBytes_ofBytes]

/-- The bits of the first byte, filled up with zeros. -/
lemma ofNat_leadingByte (bits : Bits) :
    ofNat 8 (leadingByte bits).toNat = (bits ++ List.replicate 8 false).take 8 := by
  have hlength : ((bits ++ List.replicate 8 false).take 8).length = 8 := by simp
  have hlt := toNat_lt ((bits ++ List.replicate 8 false).take 8)
  rw [hlength] at hlt
  rw [leadingByte, UInt8.toNat_ofNat', Nat.mod_eq_of_lt hlt]
  conv_rhs => rw [← ofNat_toNat ((bits ++ List.replicate 8 false).take 8), hlength]

/-- Packed bits come out of their bytes, with the zeros that fill up the last one. -/
lemma ofBytes_toBytes (bits : Bits) :
    ∃ fill, ofBytes bits.toBytes = bits ++ List.replicate fill false := by
  induction bits using byteInduction with
  | nil => exact ⟨0, rfl⟩
  | cons bit rest ih =>
    obtain ⟨fill, hfill⟩ := ih
    rw [toBytes_cons, ofBytes_cons, ofNat_leadingByte, hfill]
    by_cases hlong : 7 ≤ rest.length
    · refine ⟨fill, ?_⟩
      have htake : ((bit :: rest).take 8).length = 8 := by
        rw [List.length_take, List.length_cons]
        omega
      rw [List.take_append_of_le_length htake.ge, List.take_take, Nat.min_self, ← List.append_assoc]
      congr 1
      exact List.take_append_drop 8 (bit :: rest)
    · refine ⟨7 - rest.length + fill, ?_⟩
      have hshort : (bit :: rest).take 8 = bit :: rest :=
        List.take_of_length_le (by rw [List.length_cons]; omega)
      have hfront : (bit :: rest ++ List.replicate 8 false).take 8 =
          bit :: rest ++ List.replicate (7 - rest.length) false := by
        rw [List.take_append, hshort, List.take_replicate, List.length_cons]
        congr 2
        omega
      rw [List.drop_eq_nil_of_le (by omega), List.nil_append, hshort, hfront, List.append_assoc,
        List.replicate_append_replicate]

/-- Bits that fill whole bytes spell the same number as the bytes. -/
lemma toNat_toBytes {bits : Bits} (h : bits.length % 8 = 0) :
    Bytes.toNat bits.toBytes = toNat bits := by
  induction bits using byteInduction with
  | nil => rfl
  | cons bit rest ih =>
    rw [List.length_cons] at h
    have htake : ((bit :: rest).take 8).length = 8 := by
      rw [List.length_take, List.length_cons]
      omega
    have hbyte : (leadingByte ((bit :: rest).take 8)).toNat = toNat ((bit :: rest).take 8) := by
      have hlt := toNat_lt ((bit :: rest).take 8)
      rw [htake] at hlt
      rw [leadingByte, List.take_append_of_le_length htake.ge, List.take_take, Nat.min_self,
        UInt8.toNat_ofNat', Nat.mod_eq_of_lt hlt]
    have hlength : (rest.drop 7).length % 8 = 0 := by
      rw [List.length_drop]
      omega
    have hpow : (256 : ℕ) ^ (toBytes (rest.drop 7)).length = 2 ^ (rest.drop 7).length := by
      rw [length_toBytes, show (256 : ℕ) = 2 ^ 8 from rfl, ← pow_mul]
      congr 1
      omega
    rw [toBytes_cons, ← List.singleton_append, Bytes.toNat_append, Bytes.toNat_singleton, hbyte,
      ih hlength, hpow, ← toNat_append]
    congr 1
    exact List.take_append_drop 8 (bit :: rest)

/-- Packed bits come out of the bytes with only some bits behind them, whatever follows. -/
lemma exists_ofBytes_toBytes (bits : Bits) (rest : Bytes) :
    ∃ tail, ofBytes (bits.toBytes ++ rest) = bits ++ tail := by
  obtain ⟨fill, hfill⟩ := ofBytes_toBytes bits
  exact ⟨List.replicate fill false ++ ofBytes rest, by
    rw [ofBytes_append, hfill, List.append_assoc]⟩

/-! ## Two's complement -/

lemma toNat_ofInt (width : ℕ) (value : ℤ) :
    ((ofInt width value).toNat : ℤ) = value % (2 ^ width : ℕ) := by
  have hnonneg : 0 ≤ value % (2 ^ width : ℕ) := Int.emod_nonneg _ (by positivity)
  have hlt : value % (2 ^ width : ℕ) < (2 ^ width : ℕ) := Int.emod_lt_of_pos _ (by positivity)
  rw [ofInt, toNat_ofNat, Nat.mod_eq_of_lt (by omega), Int.toNat_of_nonneg hnonneg]

/-- A number in two's complement is read back modulo what its bits can hold. -/
lemma toInt_ofInt_eq_bmod (width : ℕ) (value : ℤ) :
    toInt (ofInt width value) = value.bmod (2 ^ width) := by
  rw [toInt, length_ofInt, toNat_ofInt, Int.emod_bmod]

/-- A number that its bits can hold is left as it is. -/
lemma bmod_of_range {width : ℕ} {value : ℤ} (hwidth : 0 < width)
    (hlow : -2 ^ (width - 1) ≤ value) (hhigh : value < 2 ^ (width - 1)) :
    value.bmod (2 ^ width) = value := by
  have hcast : ((2 ^ width : ℕ) : ℤ) = 2 * 2 ^ (width - 1) := by
    rw [← pow_succ', Nat.sub_add_cancel hwidth]
    push_cast
    rfl
  refine Int.bmod_eq_of_le ?_ ?_
  · rw [hcast]
    omega
  · rw [hcast]
    omega

lemma toInt_ofInt {width : ℕ} {value : ℤ} (hwidth : 0 < width)
    (hlow : -2 ^ (width - 1) ≤ value) (hhigh : value < 2 ^ (width - 1)) :
    toInt (ofInt width value) = value := by
  rw [toInt_ofInt_eq_bmod, bmod_of_range hwidth hlow hhigh]

/-! ## Taking bits off the front -/

lemma split?_append {width : ℕ} {front : Bits} (h : front.length = width) (rest : Bits) :
    split? width (front ++ rest) = some (front, rest) := by
  induction front generalizing width with
  | nil =>
    obtain rfl : width = 0 := h.symm
    rfl
  | cons bit front ih =>
    obtain ⟨width, rfl⟩ : ∃ n, width = n + 1 := ⟨front.length, h.symm⟩
    rw [List.cons_append, split?, ih (by simpa using h)]
    rfl

lemma split?_eq_some {width : ℕ} {bits front rest : Bits}
    (h : split? width bits = some (front, rest)) : bits = front ++ rest ∧ front.length = width := by
  induction width generalizing bits front with
  | zero =>
    cases h
    exact ⟨rfl, rfl⟩
  | succ width ih =>
    cases bits with
    | nil => cases h
    | cons bit bits =>
      rw [split?, Option.map_eq_some_iff] at h
      obtain ⟨⟨front', rest'⟩, hsplit, hfront⟩ := h
      cases hfront
      obtain ⟨rfl, hlength⟩ := ih hsplit
      exact ⟨rfl, by rw [List.length_cons, hlength]⟩

lemma split?_eq_none {width : ℕ} {bits : Bits} (h : bits.length < width) :
    split? width bits = none := by
  rw [Option.eq_none_iff_forall_ne_some]
  rintro ⟨front, rest⟩ hsplit
  obtain ⟨rfl, rfl⟩ := split?_eq_some hsplit
  rw [List.length_append] at h
  omega

/-- A number in two's complement lies within what its bits can hold. -/
lemma toInt_range {bits : Bits} (hpos : 0 < bits.length) :
    -2 ^ (bits.length - 1) ≤ toInt bits ∧ toInt bits < 2 ^ (bits.length - 1) := by
  obtain ⟨n, hn⟩ := Nat.exists_eq_add_one.mpr hpos
  have hcast : ((2 ^ bits.length : ℕ) : ℤ) = 2 * 2 ^ (bits.length - 1) := by
    rw [hn, Nat.add_sub_cancel, pow_succ]
    push_cast
    ring
  have hlow := Int.le_bmod (x := (toNat bits : ℤ)) (m := 2 ^ bits.length) (by positivity)
  have hhigh := Int.bmod_lt (x := (toNat bits : ℤ)) (m := 2 ^ bits.length) (by positivity)
  rw [toInt]
  rw [hcast] at hlow hhigh
  omega

end Bits

namespace BitReader

variable {width position : ℕ} {rest : Bits} {reader after : BitReader}

lemma take?_append {front : Bits} (h : front.length = width) :
    take? ⟨front ++ rest, position⟩ width = some (front, ⟨rest, position + width⟩) := by
  rw [take?, Bits.split?_append h]
  rfl

/-- A reader in front of a number gives it and stands behind it. -/
lemma read?_ofNat {value : ℕ} (h : value < 2 ^ width) :
    read? ⟨Bits.ofNat width value ++ rest, position⟩ width =
      some (value, ⟨rest, position + width⟩) := by
  rw [read?, take?_append (Bits.length_ofNat width value), Option.map_some]
  dsimp only
  rw [Bits.toNat_ofNat, Nat.mod_eq_of_lt h]

/-- A reader in front of a number in two's complement gives it and stands behind it. -/
lemma readSigned?_ofInt {value : ℤ} (hwidth : 0 < width) (hlow : -2 ^ (width - 1) ≤ value)
    (hhigh : value < 2 ^ (width - 1)) :
    readSigned? ⟨Bits.ofInt width value ++ rest, position⟩ width =
      some (value, ⟨rest, position + width⟩) := by
  rw [readSigned?, take?_append (Bits.length_ofInt width value), Option.map_some]
  dsimp only
  rw [Bits.toInt_ofInt hwidth hlow hhigh]

/-- What a reader takes fits the bits that it takes. -/
lemma read?_eq_some {value : ℕ} (h : reader.read? width = some (value, after)) :
    value < 2 ^ width ∧ after.position = reader.position + width := by
  rw [read?, take?, Option.map_map, Option.map_eq_some_iff] at h
  obtain ⟨⟨front, rest⟩, hsplit, hvalue⟩ := h
  cases hvalue
  obtain ⟨-, rfl⟩ := Bits.split?_eq_some hsplit
  exact ⟨Bits.toNat_lt front, rfl⟩

lemma readSigned?_eq_some {value : ℤ} (hpos : 0 < width)
    (h : reader.readSigned? width = some (value, after)) :
    -2 ^ (width - 1) ≤ value ∧ value < 2 ^ (width - 1) := by
  rw [readSigned?, take?, Option.map_map, Option.map_eq_some_iff] at h
  obtain ⟨⟨front, rest⟩, hsplit, hvalue⟩ := h
  cases hvalue
  obtain ⟨-, rfl⟩ := Bits.split?_eq_some hsplit
  exact Bits.toInt_range hpos

end BitReader

end OpenFronthaul
