import OpenFronthaul.BitWriter
import OpenFronthaul.Proofs.Wire.Bits

/-!
# Packed numbers

A writer stands behind a string of bits: those of its full bytes and those that wait in the word.
Every number that is put appends its bits (`bits_put`), so that the bytes in the end are those of
all bits in one string (`finish_eq_toBytes`), and a reader of these bytes gives every number back
(`readAll_finish`).
-/

namespace OpenFronthaul

/-! ## Numbers and their bits -/

namespace PackedNumber

/-- The bits that a number is given; what does not fit in front of them is dropped. -/
def bits (number : PackedNumber) : Bits :=
  Bits.ofInt number.width number.value

@[simp] lemma length_bits (number : PackedNumber) : number.bits.length = number.width :=
  Bits.length_ofInt ..

lemma length_flatMap_bits (numbers : List PackedNumber) :
    (numbers.flatMap bits).length = (numbers.map width).sum := by
  simp [List.length_flatMap]

lemma bits_unsigned (value : UInt32) (width : ℕ) :
    (unsigned value width).bits = Bits.ofNat width value.toNat := by
  rw [bits, PackedNumber.width, PackedNumber.value, Bits.ofInt, ← Int.natCast_mod,
    Int.toNat_natCast, Bits.ofNat_mod]

/-- The low bits of a number in two's complement are those of its word. -/
lemma bits_signed (value : Int32) {width : ℕ} (h : width ≤ 32) :
    (signed value width).bits = Bits.ofNat width value.toUInt32.toNat := by
  have hdvd : ((2 ^ width : ℕ) : ℤ) ∣ ((2 ^ 32 : ℕ) : ℤ) := by
    exact_mod_cast pow_dvd_pow 2 h
  have hvalue : value.toInt = Int.bmod value.toUInt32.toNat (2 ^ 32) :=
    BitVec.toInt_eq_toNat_bmod ..
  have hmod : value.toInt % (2 ^ width : ℕ) = value.toUInt32.toNat % (2 ^ width : ℕ) := by
    rw [hvalue, ← Int.emod_emod_of_dvd _ hdvd, Int.bmod_emod, Int.emod_emod_of_dvd _ hdvd]
  rw [bits, PackedNumber.width, PackedNumber.value, Bits.ofInt, hmod, ← Int.natCast_mod,
    Int.toNat_natCast, Bits.ofNat_mod]

end PackedNumber

/-! ## Writing -/

namespace BitWriter

variable {numbers : List PackedNumber} {number : PackedNumber} {width : ℕ}

/-- The bits that a writer stands behind. -/
def bits (writer : BitWriter) : Bits :=
  Bits.ofBytes writer.bytes ++ Bits.ofNat writer.pending writer.word.toNat

lemma length_bits (writer : BitWriter) : writer.bits.length = writer.bitLength := by
  rw [bits, List.length_append, Bits.length_ofBytes, Bits.length_ofNat, bitLength, Nat.mul_comm]

lemma toNat_ofNat_mod {n : ℕ} (h : n < 64) : (UInt64.ofNat n).toNat % 64 = n := by
  rw [UInt64.toNat_ofNat', Nat.mod_mod_of_dvd _ (by decide), Nat.mod_eq_of_lt h]

/-- Bits that are moved out of the word stay in front of those that are left in it. -/
lemma ofBytes_drain (bytes : Bytes) (word : UInt64) {pending : ℕ} (h : pending < 64) :
    Bits.ofBytes (drain bytes word pending).1 ++
        Bits.ofNat (drain bytes word pending).2 word.toNat =
      Bits.ofBytes bytes ++ Bits.ofNat pending word.toNat := by
  -- The word stays as it is while bytes are moved; only fewer of its bits count.
  fun_induction drain bytes word pending with
  | case1 bytes pending hfull ih =>
    have hbyte : Bits.ofBytes [(word >>> UInt64.ofNat (pending - 8)).toUInt8] =
        Bits.ofNat 8 (word.toNat / 2 ^ (pending - 8)) := by
      rw [Bits.ofBytes_cons, UInt64.toNat_toUInt8, UInt64.toNat_shiftRight,
        toNat_ofNat_mod (by omega), Nat.shiftRight_eq_div_pow, Bits.ofNat_mod]
      exact List.append_nil _
    have hsplit := Bits.ofNat_add 8 (pending - 8) word.toNat
    rw [Nat.add_sub_cancel' hfull] at hsplit
    rw [ih (by omega), Bits.ofBytes_append, hbyte, hsplit, List.append_assoc]
  | case2 => rfl

/-- The word of a writer when a number has been shifted in: nothing is lost at the high end. -/
lemma toNat_shiftIn (writer : BitWriter) (value : UInt32) (h : width ≤ 32) :
    (writer.word <<< UInt64.ofNat width ||| (value &&& lowMask width).toUInt64).toNat =
      writer.word.toNat * 2 ^ width + value.toNat % 2 ^ width := by
  have hword : writer.word.toNat < 2 ^ 8 :=
    writer.word_lt.trans_le (Nat.pow_le_pow_right (by decide) writer.pending_lt.le)
  have hfits : writer.word.toNat * 2 ^ width < 2 ^ 64 :=
    calc
      writer.word.toNat * 2 ^ width < 2 ^ 8 * 2 ^ width :=
        Nat.mul_lt_mul_of_pos_right hword (by positivity)
      _ = 2 ^ (8 + width) := (pow_add 2 8 width).symm
      _ ≤ 2 ^ 64 := Nat.pow_le_pow_right (by decide) (by omega)
  rw [UInt64.toNat_or, UInt64.toNat_shiftLeft, toNat_ofNat_mod (by omega),
    UInt32.toNat_toUInt64, toNat_and_lowMask value h, Nat.shiftLeft_eq, Nat.mod_eq_of_lt hfits,
    ← Nat.shiftLeft_eq, ← Nat.shiftLeft_add_eq_or_of_lt (Nat.mod_lt _ (by positivity)),
    Nat.shiftLeft_eq]

/-- The low bits of a number are written behind what was written before. -/
lemma bits_write (writer : BitWriter) (value : UInt32) (h : width ≤ 32) :
    (writer.write value width).bits = writer.bits ++ Bits.ofNat width value.toNat := by
  rw [write]
  split
  · next hzero =>
    rw [hzero, Bits.ofNat, List.append_nil]
  · have hpending := writer.pending_lt
    have hdrained := drain_lt writer.bytes
      (writer.word <<< UInt64.ofNat width ||| (value &&& lowMask width).toUInt64)
      (writer.pending + width)
    have hlow : value.toNat % 2 ^ width < 2 ^ width := Nat.mod_lt _ (by positivity)
    have hdiv : (writer.word.toNat * 2 ^ width + value.toNat % 2 ^ width) / 2 ^ width =
        writer.word.toNat := by
      rw [Nat.mul_comm, Nat.mul_add_div (by positivity), Nat.div_eq_of_lt hlow, Nat.add_zero]
    have hmod : (writer.word.toNat * 2 ^ width + value.toNat % 2 ^ width) % 2 ^ width =
        value.toNat % 2 ^ width := by
      rw [Nat.mul_add_mod_self_right, Nat.mod_mod]
    dsimp only [bits]
    rw [toNat_and_pendingMask _ (by omega), Bits.ofNat_mod, ofBytes_drain _ _ (by omega),
      toNat_shiftIn writer value h, Bits.ofNat_add, hdiv, ← Bits.ofNat_mod width, hmod,
      Bits.ofNat_mod, List.append_assoc]

lemma bits_put (writer : BitWriter) (h : number.width ≤ 32) :
    (writer.put number).bits = writer.bits ++ number.bits := by
  cases number with
  | unsigned value width =>
    rw [PackedNumber.width] at h
    rw [PackedNumber.bits_unsigned, put, bits_write writer value h]
  | signed value width =>
    rw [PackedNumber.width] at h
    rw [PackedNumber.bits_signed value h, put, writeSigned, bits_write writer _ h]

/-- A writer that starts anew and is given some numbers. -/
def ofNumbers (numbers : List PackedNumber) : BitWriter :=
  numbers.foldl put {}

lemma bits_ofNumbers (h : ∀ number ∈ numbers, number.width ≤ 32) :
    (ofNumbers numbers).bits = numbers.flatMap PackedNumber.bits := by
  induction numbers using List.reverseRecOn with
  | nil => rfl
  | append_singleton numbers number ih =>
    rw [List.forall_mem_append, List.forall_mem_singleton] at h
    rw [ofNumbers, List.foldl_append, List.flatMap_append, List.flatMap_singleton]
    exact (bits_put (ofNumbers numbers) h.2).trans (by rw [ih h.1])

/-- The bits of the packed bytes, of which only the last byte is filled up. -/
lemma exists_ofBytes_finish (writer : BitWriter) : ∃ fill < 8,
    Bits.ofBytes writer.finish = writer.bits ++ List.replicate fill false := by
  rw [finish]
  have hlt := writer.pending_lt
  split
  · next hpending =>
    refine ⟨8 - writer.pending, by omega, ?_⟩
    have hbits := bits_write writer 0 (show 8 - writer.pending ≤ 32 by omega)
    rw [UInt32.toNat_zero, Bits.ofNat_zero] at hbits
    have hlength := congrArg List.length hbits
    have hnone := (writer.write 0 (8 - writer.pending)).pending_lt
    rw [length_bits, List.length_append, length_bits, List.length_replicate, bitLength,
      bitLength] at hlength
    have hzero : (writer.write 0 (8 - writer.pending)).pending = 0 := by omega
    rw [← hbits, bits, hzero, Bits.ofNat, List.append_nil]
  · next hpending =>
    have hzero : writer.pending = 0 := by omega
    refine ⟨0, by decide, ?_⟩
    rw [bits, hzero, Bits.ofNat, List.append_nil, List.replicate_zero, List.append_nil]

/-- The packed bytes are those of all bits in one string. -/
theorem finish_eq_toBytes (writer : BitWriter) : writer.finish = writer.bits.toBytes := by
  obtain ⟨fill, hfill, hfinish⟩ := writer.exists_ofBytes_finish
  obtain ⟨fill', hpacked⟩ := Bits.ofBytes_toBytes writer.bits
  have hlength := congrArg List.length hfinish
  have hlength' := congrArg List.length hpacked
  rw [Bits.length_ofBytes, List.length_append, List.length_replicate] at hlength hlength'
  rw [Bits.length_toBytes] at hlength'
  obtain rfl : fill = fill' := by omega
  rw [← Bits.toBytes_ofBytes writer.finish, hfinish, ← hpacked, Bits.toBytes_ofBytes]

lemma finish_ofNumbers (h : ∀ number ∈ numbers, number.width ≤ 32) :
    (ofNumbers numbers).finish = Bits.toBytes (numbers.flatMap PackedNumber.bits) := by
  rw [finish_eq_toBytes, bits_ofNumbers h]

lemma bitLength_ofNumbers (h : ∀ number ∈ numbers, number.width ≤ 32) :
    (ofNumbers numbers).bitLength = (numbers.map PackedNumber.width).sum := by
  rw [← length_bits, bits_ofNumbers h, PackedNumber.length_flatMap_bits]

end BitWriter

/-! ## Reading -/

namespace NumberForm

/-- The number that some bits are read as. -/
def ofBits : NumberForm → Bits → ℤ
  | unsigned _, bits => bits.toNat
  | signed _, bits => bits.toInt

/-- What the bits of a form hold of a number. -/
def keep : NumberForm → ℤ → ℤ
  | unsigned width, value => value % (2 ^ width : ℕ)
  | signed width, value => value.bmod (2 ^ width)

lemma ofBits_ofInt (form : NumberForm) (value : ℤ) :
    form.ofBits (Bits.ofInt form.width value) = form.keep value := by
  cases form with
  | unsigned width => exact Bits.toNat_ofInt width value
  | signed width => exact Bits.toInt_ofInt_eq_bmod width value

end NumberForm

namespace BitReader

variable {reader : BitReader} {form : NumberForm} {forms : List NumberForm}
  {numbers : List PackedNumber} {rest : Bits} {position : ℕ}

lemma next_of_take?_some {bits : Bits} {after : BitReader}
    (h : reader.take? form.width = some (bits, after)) :
    reader.next form = (some (form.ofBits bits), after) := by
  cases form <;>
  · rw [NumberForm.width] at h
    simp only [next, read?, readSigned?, h]
    rfl

lemma next_of_take?_none (h : reader.take? form.width = none) :
    reader.next form = (none, reader) := by
  cases form <;>
  · rw [NumberForm.width] at h
    simp only [next, read?, readSigned?, h]
    rfl

/-- A reader in front of enough bits reads them and stands behind them. -/
lemma next_append {front : Bits} (h : front.length = form.width) :
    next ⟨front ++ rest, position⟩ form =
      (some (form.ofBits front), ⟨rest, position + form.width⟩) :=
  next_of_take?_some (take?_append h)

/-- A reader in front of too few bits stays where it is. -/
lemma next_of_short (h : reader.rest.length < form.width) : reader.next form = (none, reader) := by
  refine next_of_take?_none ?_
  rw [take?, Bits.split?_eq_none h]
  rfl

lemma next_of_long (h : form.width ≤ reader.rest.length) :
    reader.next form = (some (form.ofBits (reader.rest.take form.width)),
      ⟨reader.rest.drop form.width, reader.position + form.width⟩) := by
  have hnext : next
        ⟨reader.rest.take form.width ++ reader.rest.drop form.width, reader.position⟩ form =
      (some (form.ofBits (reader.rest.take form.width)),
        ⟨reader.rest.drop form.width, reader.position + form.width⟩) :=
    next_append (List.length_take_of_le h)
  rwa [List.take_append_drop] at hnext

/-- What is read in some forms one after the other, and the reader in the end. -/
def readAll (reader : BitReader) : List NumberForm → List (Option ℤ) × BitReader
  | [] => ([], reader)
  | form :: forms =>
    let (value, after) := reader.next form
    let (values, last) := after.readAll forms
    (value :: values, last)

/-- A reader in front of packed numbers reads each of them in turn. -/
lemma readAll_flatMap (h : forms.map NumberForm.width = numbers.map PackedNumber.width) :
    readAll ⟨numbers.flatMap PackedNumber.bits ++ rest, position⟩ forms =
      (List.zipWith (fun form number => some (form.keep number.value)) forms numbers,
        ⟨rest, position + (numbers.map PackedNumber.width).sum⟩) := by
  induction forms generalizing numbers position with
  | nil =>
    obtain rfl := List.map_eq_nil_iff.mp h.symm
    rfl
  | cons form forms ih =>
    cases numbers with
    | nil => cases h
    | cons number numbers =>
      rw [List.map_cons, List.map_cons, List.cons.injEq] at h
      have hvalue : form.ofBits number.bits = form.keep number.value := by
        rw [PackedNumber.bits, ← h.1, form.ofBits_ofInt]
      rw [List.flatMap_cons, List.append_assoc, readAll,
        next_append (number.length_bits.trans h.1.symm), hvalue]
      dsimp only
      rw [ih h.2, List.zipWith_cons_cons, List.map_cons, List.sum_cons, h.1, Nat.add_assoc]

/-- What was read and what is still to be read make up the whole. -/
lemma position_next (reader : BitReader) (form : NumberForm) :
    (reader.next form).2.position + (reader.next form).2.rest.length =
      reader.position + reader.rest.length := by
  by_cases h : form.width ≤ reader.rest.length
  · rw [next_of_long h]
    dsimp only
    rw [List.length_drop]
    omega
  · rw [next_of_short (Nat.lt_of_not_le h)]

lemma position_readAll (reader : BitReader) (forms : List NumberForm) :
    (reader.readAll forms).2.position + (reader.readAll forms).2.rest.length =
      reader.position + reader.rest.length := by
  induction forms generalizing reader with
  | nil => rfl
  | cons form forms ih => exact (ih (reader.next form).2).trans (reader.position_next form)

/-- Wherever a reader of some bytes has come to, it fails exactly for a number that ends behind the
bytes, and then it stays where it is. -/
lemma next_eq_none_iff (data : Bytes) (forms : List NumberForm) (form : NumberForm) :
    ((ofBytes data).readAll forms).2.next form = (none, ((ofBytes data).readAll forms).2) ↔
      8 * data.length < ((ofBytes data).readAll forms).2.position + form.width := by
  have hwhole := (ofBytes data).position_readAll forms
  have hbits : (ofBytes data).position + (ofBytes data).rest.length = 8 * data.length :=
    (Nat.zero_add _).trans (Bits.length_ofBytes data)
  constructor
  · intro hnone
    by_contra hlong
    rw [next_of_long (by omega)] at hnone
    cases hnone
  · intro hshort
    exact next_of_short (by omega)

/-- What a writer was given is read back in any forms of the same widths, each number modulo what
its bits can hold; the last byte is filled up with zeros and counts as consumed. -/
theorem readAll_finish (hnumbers : ∀ number ∈ numbers, number.width ≤ 32)
    (hforms : forms.map NumberForm.width = numbers.map PackedNumber.width) :
    let total := (numbers.map PackedNumber.width).sum
    let data := (BitWriter.ofNumbers numbers).finish
    (∀ front, front <+: numbers →
      (BitWriter.ofNumbers front).bitLength = (front.map PackedNumber.width).sum) ∧
    data.length = (total + 7) / 8 ∧
    (∀ i, total ≤ i → ∀ h : i / 8 < data.length, data[i / 8].toNat.testBit (7 - i % 8) = false) ∧
    ((ofBytes data).readAll forms).1 =
      List.zipWith (fun form number => some (form.keep number.value)) forms numbers ∧
    (∀ width value, 0 < width → -2 ^ (width - 1) ≤ value → value < 2 ^ (width - 1) →
      (NumberForm.signed width).keep value = value) ∧
    ((ofBytes data).readAll forms).2.bytesConsumed = (total + 7) / 8 ∧
    ∀ data before form, let reader := ((ofBytes data).readAll before).2
      reader.next form = (none, reader) ↔ 8 * data.length < reader.position + form.width := by
  intro total data
  have hdata : data = Bits.toBytes (numbers.flatMap PackedNumber.bits) :=
    BitWriter.finish_ofNumbers hnumbers
  have htotal : (numbers.flatMap PackedNumber.bits).length = total :=
    PackedNumber.length_flatMap_bits numbers
  obtain ⟨fill, hfill⟩ := Bits.ofBytes_toBytes (numbers.flatMap PackedNumber.bits)
  rw [← hdata] at hfill
  -- The zeros that fill up the last byte are what is left in front of the reader.
  have hread : (ofBytes data).readAll forms =
      (List.zipWith (fun form number => some (form.keep number.value)) forms numbers,
        ⟨List.replicate fill false, total⟩) := by
    rw [ofBytes, hfill, readAll_flatMap hforms, Nat.zero_add]
  refine ⟨fun front hfront => ?_, ?_, fun i hi h => ?_, ?_,
    fun width value => Bits.bmod_of_range, ?_, next_eq_none_iff⟩
  · exact BitWriter.bitLength_ofNumbers fun number hnumber =>
      hnumbers number (hfront.subset hnumber)
  · rw [hdata, Bits.length_toBytes, htotal]
  · have hlt : i < (Bits.ofBytes data).length := by
      rw [Bits.length_ofBytes]
      omega
    rw [← Bits.getElem_ofBytes hlt h, List.getElem_of_eq hfill,
      List.getElem_append_right (htotal.trans_le hi), List.getElem_replicate]
  · rw [hread]
  · rw [hread, bytesConsumed]

end BitReader

/-! ## Numbers that do not end with a byte -/

namespace UnevenNumbers

/-- Numbers of several widths; the second one is written when seven bits are waiting. -/
def numbers : List PackedNumber :=
  [.unsigned 0x55 7, .unsigned 0xffffffff 32, .signed (-3) 9, .unsigned 5 0, .signed 200 9,
    .signed (-2147483648) 32]

/-- Forms of the same widths, some of them other than the numbers were written in. -/
def forms : List NumberForm :=
  [.unsigned 7, .signed 32, .signed 9, .unsigned 0, .signed 9, .unsigned 32]

/-- The numbers take 89 bits of twelve bytes, so that seven bits are left behind them. -/
theorem readAll_finish_uneven :
    (∀ number ∈ numbers, number.width ≤ 32) ∧
      forms.map NumberForm.width = numbers.map PackedNumber.width ∧
      let data := (BitWriter.ofNumbers numbers).finish
      let read := (BitReader.ofBytes data).readAll forms
      data.length = 12 ∧
        read.1 = [some 85, some (-1), some (-3), some 0, some 200, some 2147483648] ∧
        read.2.bytesConsumed = 12 ∧ read.2.next (.unsigned 8) = (none, read.2) := by
  have hnumbers : ∀ number ∈ numbers, number.width ≤ 32 := by decide
  have hforms : forms.map NumberForm.width = numbers.map PackedNumber.width := by decide
  obtain ⟨-, hlength, -, hvalues, -, hconsumed, hnext⟩ := BitReader.readAll_finish hnumbers hforms
  refine ⟨hnumbers, hforms, hlength, hvalues.trans (by decide), hconsumed,
    (hnext _ forms (.unsigned 8)).mpr ?_⟩
  rw [BitReader.bytesConsumed] at hconsumed
  have htotal : (numbers.map PackedNumber.width).sum = 89 := rfl
  rw [hlength, NumberForm.width]
  omega

end UnevenNumbers

end OpenFronthaul
