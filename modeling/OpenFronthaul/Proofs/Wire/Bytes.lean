import OpenFronthaul.BitField
import OpenFronthaul.Extension.Block
import Mathlib.Tactic

/-!
# Numbers in byte strings, and fields in words

What is written most significant byte first is read back modulo what its bytes can hold
(`toNat_ofNat`).  A field of a word is read as it was written last, and writing it leaves alone every
field that it does not overlap (`get_put_self`, `get_put_of_disjoint`).
-/

namespace OpenFronthaul

namespace Bytes

lemma toNat_append_singleton (bytes : Bytes) (byte : UInt8) :
    toNat (bytes ++ [byte]) = toNat bytes * 256 + byte.toNat := by
  simp [toNat]

/-- The first bytes count as many powers of 256 as there are bytes behind them. -/
lemma toNat_append (front back : Bytes) :
    toNat (front ++ back) = toNat front * 256 ^ back.length + toNat back := by
  induction back using List.reverseRecOn with
  | nil => simp [toNat]
  | append_singleton back byte ih =>
    rw [← List.append_assoc, toNat_append_singleton, ih, toNat_append_singleton,
      List.length_append, List.length_singleton, pow_succ]
    ring

@[simp] lemma toNat_singleton (byte : UInt8) : toNat [byte] = byte.toNat := by
  simp [toNat]

lemma toNat_ofNat (count value : ℕ) : toNat (ofNat count value) = value % 256 ^ count := by
  induction count with
  | zero => simp [ofNat, toNat, Nat.mod_one]
  | succ count ih =>
    have hsplit : ofNat (count + 1) value = [UInt8.ofNat (value / 256 ^ count)] ++ ofNat count value :=
      rfl
    rw [hsplit, toNat_append, toNat_singleton, ih, length_ofNat, UInt8.toNat_ofNat',
      Nat.mod_pow_succ (b := 256), Nat.add_comm, Nat.mul_comm (256 ^ count)]

lemma toNat_lt (bytes : Bytes) : toNat bytes < 256 ^ bytes.length := by
  induction bytes using List.reverseRecOn with
  | nil => simp [toNat]
  | append_singleton bytes byte ih =>
    rw [toNat_append_singleton, List.length_append, List.length_singleton, pow_succ]
    have := byte.toNat_lt
    omega

end Bytes

/-- Two bytes hold a number of sixteen bits. -/
lemma ofNat_toNat_mod (n : UInt16) : UInt16.ofNat (n.toNat % 256 ^ 2) = n := by
  have hlt := n.toNat_lt
  rw [Nat.mod_eq_of_lt (by omega), UInt16.ofNat_toNat]

/-! ## Reading at a place -/

namespace Extension

variable {pre data rest : Bytes} {start count : ℕ}

lemma numberAt_append_left (h : start + count ≤ data.length) :
    numberAt (data ++ rest) start count = numberAt data start count := by
  have hstart : start ≤ data.length := by omega
  rw [numberAt, numberAt, List.drop_append_of_le_length hstart,
    List.take_append_of_le_length (by rw [List.length_drop]; omega)]

lemma numberAt_append_right (h : pre.length ≤ start) :
    numberAt (pre ++ rest) start count = numberAt rest (start - pre.length) count := by
  rw [numberAt, numberAt, List.drop_append, List.drop_eq_nil_of_le h, List.nil_append]

/-- A number is read back from the start of some data. -/
lemma numberAt_ofNat (value : ℕ) :
    numberAt (Bytes.ofNat count value ++ rest) 0 count = value % 256 ^ count := by
  rw [numberAt_append_left (by simp), numberAt, List.drop_zero,
    List.take_of_length_le (by simp), Bytes.toNat_ofNat]

/-- A number is read back from behind some other data. -/
lemma numberAt_append_ofNat (value : ℕ) (h : pre.length = start) :
    numberAt (pre ++ (Bytes.ofNat count value ++ rest)) start count = value % 256 ^ count := by
  rw [numberAt_append_right h.le, h, Nat.sub_self, numberAt_ofNat]

@[simp] lemma byteAt_cons_zero (byte : UInt8) : byteAt (byte :: rest) 0 = byte.toNat := rfl

@[simp] lemma byteAt_cons_succ (byte : UInt8) (index : ℕ) :
    byteAt (byte :: rest) (index + 1) = byteAt rest index := rfl

lemma byteAt_append_left (h : start < data.length) :
    byteAt (data ++ rest) start = byteAt data start := by
  rw [byteAt, byteAt, List.getD_eq_getElem?_getD, List.getD_eq_getElem?_getD,
    List.getElem?_append_left h]

lemma byteAt_append_right (h : pre.length ≤ start) :
    byteAt (pre ++ rest) start = byteAt rest (start - pre.length) := by
  rw [byteAt, byteAt, List.getD_eq_getElem?_getD, List.getElem?_append_right h,
    List.getD_eq_getElem?_getD]

/-- A byte is read back from behind some other data. -/
lemma byteAt_append_cons (byte : UInt8) (h : pre.length = start) :
    byteAt (pre ++ byte :: rest) start = byte.toNat := by
  rw [byteAt_append_right h.le, h, Nat.sub_self, byteAt_cons_zero]

lemma byteAt_take {n : ℕ} (h : start < n) : byteAt (data.take n) start = byteAt data start := by
  rw [byteAt, byteAt, List.getD_eq_getElem?_getD, List.getD_eq_getElem?_getD,
    List.getElem?_take_of_lt h]

lemma numberAt_take {n : ℕ} (h : start + count ≤ n) :
    numberAt (data.take n) start count = numberAt data start count := by
  rw [numberAt, numberAt, List.drop_take, List.take_take, Nat.min_eq_left (by omega)]

lemma byteAt_lt (data : Bytes) (index : ℕ) : byteAt data index < 256 :=
  (data.getD index 0).toNat_lt

lemma numberAt_lt (data : Bytes) (start count : ℕ) : numberAt data start count < 256 ^ count := by
  refine (Bytes.toNat_lt _).trans_le (Nat.pow_le_pow_right (by decide) ?_)
  rw [List.length_take]
  exact min_le_left _ _

/-- Data that is long enough is not refused. -/
lemma require_of_le {piece : Piece} {needed : ℕ} (h : needed ≤ data.length) :
    require piece needed data = .ok () :=
  if_neg (by omega)

end Extension

/-! ## Fields -/

namespace BitField

variable {field other : BitField} {word value : ℕ}

/-- A word with a field replaced, bit by bit. -/
lemma testBit_put (h : field.shift + field.width ≤ wordBits) (i : ℕ) :
    (field.put word value).testBit i =
      if field.shift ≤ i ∧ i < field.shift + field.width then value.testBit (i - field.shift)
      else word.testBit i := by
  have hvalue : value % 2 ^ field.width * 2 ^ field.shift < 2 ^ wordBits :=
    calc
      value % 2 ^ field.width * 2 ^ field.shift < 2 ^ field.width * 2 ^ field.shift :=
        Nat.mul_lt_mul_of_pos_right (Nat.mod_lt _ (by positivity)) (by positivity)
      _ = 2 ^ (field.shift + field.width) := by rw [Nat.mul_comm, pow_add]
      _ ≤ 2 ^ wordBits := Nat.pow_le_pow_right (by norm_num) h
  have hput : field.put word value =
      2 ^ field.shift * (2 ^ field.width * (word / 2 ^ (field.shift + field.width))
        + value % 2 ^ field.width) + word % 2 ^ field.shift := by
    rw [put, Nat.mod_eq_of_lt hvalue, pow_add]
    ring
  rw [hput, Nat.testBit_two_pow_mul_add _ (Nat.mod_lt _ (by positivity))]
  split_ifs with hlow hin hin
  · omega
  · rw [Nat.testBit_mod_two_pow, decide_eq_true hlow, Bool.true_and]
  · rw [Nat.testBit_two_pow_mul_add _ (Nat.mod_lt _ (by positivity)), if_pos (by omega),
      Nat.testBit_mod_two_pow, decide_eq_true (by omega), Bool.true_and]
  · rw [Nat.testBit_two_pow_mul_add _ (Nat.mod_lt _ (by positivity)), if_neg (by omega),
      Nat.testBit_div_two_pow]
    congr 1
    omega

lemma testBit_get (i : ℕ) : (field.get word).testBit i =
    (decide (i < field.width) && word.testBit (i + field.shift)) := by
  rw [get, Nat.testBit_mod_two_pow, Nat.testBit_div_two_pow]

/-- A field is read as it was written. -/
lemma get_put_self (h : field.shift + field.width ≤ wordBits) :
    field.get (field.put word value) = value % 2 ^ field.width := by
  refine Nat.eq_of_testBit_eq fun i => ?_
  rw [testBit_get, testBit_put h, Nat.testBit_mod_two_pow]
  by_cases hi : i < field.width
  · rw [if_pos (by omega), Nat.add_sub_cancel]
  · simp [hi]

/-- A field that fits is read as it was written. -/
lemma get_put_of_lt (h : field.shift + field.width ≤ wordBits) (hvalue : value < 2 ^ field.width) :
    field.get (field.put word value) = value := by
  rw [get_put_self h, Nat.mod_eq_of_lt hvalue]

/-- Writing a field leaves the others alone. -/
lemma get_put_of_disjoint (h : field.shift + field.width ≤ wordBits)
    (hdisjoint : other.shift + other.width ≤ field.shift ∨
      field.shift + field.width ≤ other.shift) :
    other.get (field.put word value) = other.get word := by
  refine Nat.eq_of_testBit_eq fun i => ?_
  rw [testBit_get, testBit_get, testBit_put h]
  by_cases hi : i < other.width
  · rw [if_neg (by omega)]
  · simp [hi]

/-- A field within the first bits of a word is read from these bits. -/
lemma get_mod_two_pow {n : ℕ} (h : field.shift + field.width ≤ n) :
    field.get (word % 2 ^ n) = field.get word := by
  refine Nat.eq_of_testBit_eq fun i => ?_
  rw [testBit_get, testBit_get, Nat.testBit_mod_two_pow]
  by_cases hi : i < field.width
  · rw [decide_eq_true (show i + field.shift < n by omega), Bool.true_and]
  · simp [hi]

end BitField

end OpenFronthaul
