import OpenFronthaul.Message.SectionWord
import OpenFronthaul.Proofs.Message.Header
import OpenFronthaul.Proofs.Wire.Bits
import OpenFronthaul.Receiver
import OpenFronthaul.Section.Tagging

/-!
# Sections are read as they are written

A section keeps its own fields on the wire.  Its id comes back without its tag, a section for the
whole carrier comes back as the receiver knows the carrier, and what belongs to the message as a whole
is taken from there (`FlowContext.interpret_onWire`).
-/

namespace OpenFronthaul

open Extension

namespace Section

variable {s : Section} {type : SectionType} {wireId : ℕ} {extended : Bool}

/-- The fields that the word of a section has bits enough for. -/
structure Fits (s : Section) (wireId : ℕ) : Prop where
  id : wireId < 2 ^ SectionWord.id.width
  startPrb : s.startPrb.toNat < 2 ^ SectionWord.startPrb.width
  reMask : s.reMask.toNat < 2 ^ SectionWord.reMask.width
  numSymbols : s.numSymbols.toNat < 2 ^ SectionWord.numSymbols.width
  beamId : s.beamId.toNat < 2 ^ SectionWord.beamId.width

lemma wireNumPrb_lt (s : Section) : s.wireNumPrb < 256 := by
  unfold wireNumPrb usesSentinel
  split_ifs with h
  · omega
  · simp only [Bool.or_eq_true, decide_eq_true_eq, not_or, not_lt] at h
    omega

/-- All fields of the word are read as they were written. -/
lemma get_word (extended : Bool) (hfits : s.Fits wireId) :
    SectionWord.id.get (s.word wireId extended) = wireId ∧
    SectionWord.alternate.get (s.word wireId extended) = s.alternate.toNat ∧
    SectionWord.symbolIncrement.get (s.word wireId extended) = s.symbolIncrement.toNat ∧
    SectionWord.startPrb.get (s.word wireId extended) = s.startPrb.toNat ∧
    SectionWord.numPrb.get (s.word wireId extended) = s.wireNumPrb ∧
    SectionWord.reMask.get (s.word wireId extended) = s.reMask.toNat ∧
    SectionWord.numSymbols.get (s.word wireId extended) = s.numSymbols.toNat ∧
    SectionWord.extended.get (s.word wireId extended) = extended.toNat ∧
    SectionWord.beamId.get (s.word wireId extended) = s.beamId.toNat := by
  have halternate : s.alternate.toNat < 2 ^ SectionWord.alternate.width := s.alternate.toNat_lt
  have hincrement : s.symbolIncrement.toNat < 2 ^ SectionWord.symbolIncrement.width :=
    s.symbolIncrement.toNat_lt
  have hnumPrb : s.wireNumPrb < 2 ^ SectionWord.numPrb.width := s.wireNumPrb_lt
  have hextended : extended.toNat < 2 ^ SectionWord.extended.width := extended.toNat_lt
  obtain ⟨hid, hstart, hmask, hsymbols, hbeam⟩ := hfits
  simp (disch := first | decide | assumption) only [word, BitField.get_put_of_lt,
    BitField.get_put_of_disjoint, and_self]

/-- A section as it is read from the wire. -/
def onWire (s : Section) (type : SectionType) (wireId : ℕ) (extended : Bool) : WireSection where
  wireId := UInt16.ofNat wireId
  alternate := s.alternate
  symbolIncrement := s.symbolIncrement
  startPrb := s.startPrb
  numPrb := UInt8.ofNat s.wireNumPrb
  reMask := s.reMask
  numSymbols := s.numSymbols
  extended
  beamId := s.beamId
  frequencyOffset := if type = .mixed then s.frequencyOffset else 0

/-- The frequency offset is read as it was written. -/
lemma signExtend_encodeOffset {bytes : Bytes} (h : s.encodeOffset = .ok bytes) (pre rest : Bytes) :
    bytes.length = 4 ∧
      signExtend 24 (numberAt (pre ++ (bytes ++ rest)) pre.length 3) = s.frequencyOffset := by
  rw [encodeOffset, guard_eq_ok, pure_eq_ok] at h
  obtain ⟨hrange, rfl⟩ := h
  have hlength : (Bits.ofInt 24 s.frequencyOffset).toBytes.length = 3 := by
    rw [Bits.length_toBytes, Bits.length_ofInt]
  refine ⟨by rw [List.length_append, hlength]; rfl, ?_⟩
  have hnumber : numberAt (pre ++ ((Bits.ofInt 24 s.frequencyOffset).toBytes ++ [0] ++ rest))
      pre.length 3 = Bits.toNat (Bits.ofInt 24 s.frequencyOffset) := by
    rw [numberAt_append_right le_rfl, Nat.sub_self, List.append_assoc,
      numberAt_append_left (by omega), numberAt, List.drop_zero, List.take_of_length_le hlength.le,
      Bits.toNat_toBytes (by rw [Bits.length_ofInt])]
  have hoffset := Bits.toInt_ofInt (show 0 < 24 by norm_num)
    (show -2 ^ (24 - 1) ≤ s.frequencyOffset by omega) (by omega)
  rw [hnumber, signExtend]
  rwa [Bits.toInt, Bits.length_ofInt] at hoffset

/-- The steps of writing a section. -/
lemma encode_eq_ok {bytes : Bytes} : s.encode type wireId extended = .ok bytes ↔
    s.Fits wireId ∧ (0 < s.numSymbols.toNat ∧ s.numSymbols.toNat ≤ symbolsPerSlot) ∧
      ∃ offset, (if type = .mixed then s.encodeOffset else pure []) = .ok offset ∧
        Bytes.ofNat 8 (s.word wireId extended) ++ offset = bytes := by
  have hfits : s.Fits wireId ↔ wireId < 2 ^ SectionWord.id.width ∧
      s.startPrb.toNat < 2 ^ SectionWord.startPrb.width ∧
      s.reMask.toNat < 2 ^ SectionWord.reMask.width ∧
      s.numSymbols.toNat < 2 ^ SectionWord.numSymbols.width ∧
      s.beamId.toNat < 2 ^ SectionWord.beamId.width :=
    ⟨fun ⟨hid, hstart, hmask, hsymbols, hbeam⟩ => ⟨hid, hstart, hmask, hsymbols, hbeam⟩,
      fun ⟨hid, hstart, hmask, hsymbols, hbeam⟩ => ⟨hid, hstart, hmask, hsymbols, hbeam⟩⟩
  have hsome : ¬(s.numSymbols.toNat = 0 ∨ symbolsPerSlot < s.numSymbols.toNat) ↔
      0 < s.numSymbols.toNat ∧ s.numSymbols.toNat ≤ symbolsPerSlot := by
    rw [not_or, not_lt, Nat.pos_iff_ne_zero]
  -- a check has nothing but its success to tell
  have hcheck {P : Unit → Prop} : (∃ a, P a) ↔ P () := ⟨fun ⟨_, h⟩ => h, fun h => ⟨(), h⟩⟩
  rw [hfits, ← hsome]
  simp only [encode, bind_eq_ok, check_eq_ok, hcheck, BitField.check_eq_ok, and_assoc]
  by_cases htype : type = .mixed
  · simp only [if_pos htype, bind_eq_ok, pure_eq_ok]
  · simp only [if_neg htype, bind_eq_ok, pure_eq_ok]

lemma toNat_wireId (h : wireId < 2 ^ SectionWord.id.width) : (UInt16.ofNat wireId).toNat = wireId :=
  UInt16.toNat_ofNat_of_lt' (h.trans_le (by decide))

/-- A section is read as it was written, whatever follows it. -/
theorem parse_encode {bytes : Bytes} (h : s.encode type wireId extended = .ok bytes)
    (hsupported : type.isSupported = true) (rest : Bytes) :
    WireSection.parse (bytes ++ rest) type = .ok (s.onWire type wireId extended) ∧
      bytes.length = type.sectionLength := by
  obtain ⟨hfits, -, offset, hoffset, rfl⟩ := encode_eq_ok.mp h
  obtain ⟨hid, halternate, hincrement, hstart, hnumPrb, hmask, hsymbols, hextended, hbeam⟩ :=
    get_word extended hfits
  have hword : numberAt (Bytes.ofNat 8 (s.word wireId extended) ++ offset ++ rest) 0 8 =
      s.word wireId extended % 2 ^ 64 := by
    rw [List.append_assoc, numberAt_ofNat]
    rfl
  obtain ⟨hlength, hfrequency⟩ : (Bytes.ofNat 8 (s.word wireId extended) ++ offset).length =
      type.sectionLength ∧ (if type = .mixed then signExtend 24 (numberAt (Bytes.ofNat 8
        (s.word wireId extended) ++ offset ++ rest) 8 3) else 0) =
          if type = .mixed then s.frequencyOffset else 0 := by
    by_cases htype : type = .mixed
    · -- the offset is the only field outside the word
      rw [if_pos htype] at hoffset
      obtain ⟨hfour, hsign⟩ :=
        signExtend_encodeOffset hoffset (Bytes.ofNat 8 (s.word wireId extended)) rest
      rw [Bytes.length_ofNat] at hsign
      rw [if_pos htype, if_pos htype, List.append_assoc]
      exact ⟨by rw [List.length_append, hfour, htype]; rfl, hsign⟩
    · rw [if_neg htype] at hoffset
      obtain rfl := pure_eq_ok.mp hoffset
      rw [if_neg htype, if_neg htype]
      refine ⟨?_, rfl⟩
      cases type with
      | mixed => exact absurd rfl htype
      | unused | scheduling | channelState | assistedAccess => cases hsupported
      | regular => rfl
  have hflag : ∀ b : Bool, decide (b.toNat = 1) = b := by decide
  refine ⟨?_, hlength⟩
  rw [WireSection.parse, if_neg (by rw [List.length_append, hlength]; omega), hword]
  simp (disch := decide) only [BitField.get_mod_two_pow, hid, halternate, hincrement, hstart,
    hnumPrb, hmask, hsymbols, hextended, hbeam, hfrequency, hflag, UInt16.ofNat_toNat,
    UInt8.ofNat_toNat]
  rfl

end Section

/-- The steps of reading a section: they look at the length and take the fields. -/
lemma WireSection.parse_eq_ok {data : Bytes} {type : SectionType} {wire : WireSection} :
    parse data type = .ok wire ↔ type.sectionLength ≤ data.length ∧ wire =
      { wireId := UInt16.ofNat (SectionWord.id.get (numberAt data 0 8))
        alternate := SectionWord.alternate.get (numberAt data 0 8) = 1
        symbolIncrement := SectionWord.symbolIncrement.get (numberAt data 0 8) = 1
        startPrb := UInt16.ofNat (SectionWord.startPrb.get (numberAt data 0 8))
        numPrb := UInt8.ofNat (SectionWord.numPrb.get (numberAt data 0 8))
        reMask := UInt16.ofNat (SectionWord.reMask.get (numberAt data 0 8))
        numSymbols := UInt8.ofNat (SectionWord.numSymbols.get (numberAt data 0 8))
        extended := SectionWord.extended.get (numberAt data 0 8) = 1
        beamId := UInt16.ofNat (SectionWord.beamId.get (numberAt data 0 8))
        frequencyOffset :=
          if type = .mixed then signExtend 24 (numberAt data 8 3) else 0 } := by
  rw [parse, check_eq_ok, pure_eq_ok, not_lt, @eq_comm _ wire]

namespace Section

variable {s : Section} {type : SectionType} {wireId : ℕ} {extended : Bool}

/-- A section as a receiver knows it, of a message with the given type and header. -/
def received (s : Section) (type : SectionType) (header : MessageHeader)
    (carrierPrbs : Option UInt16) (extended : Bool) : Section :=
  { s with
    type
    startSymbol := header.startSymbol
    compression := header.compression
    iqWidth := header.iqWidth
    extended
    numPrb := if s.usesSentinel then carrierPrbs.getD 0 else s.numPrb
    allPrbs := s.usesSentinel
    frequencyOffset := if type = .mixed then s.frequencyOffset else 0
    elementBegin := false
    elementEnd := false
    pointers := noPointers }

/-- A number of resource blocks comes back as it is, or as the sentinel. -/
lemma toNat_wireNumPrb (h : s.allPrbs = true ∨ 1 ≤ s.numPrb.toNat) :
    ((UInt8.ofNat s.wireNumPrb).toNat = 0 ↔ s.usesSentinel = true) ∧
      (s.usesSentinel = false → UInt16.ofNat (UInt8.ofNat s.wireNumPrb).toNat = s.numPrb) := by
  rw [UInt8.toNat_ofNat', Nat.mod_eq_of_lt s.wireNumPrb_lt]
  by_cases hsentinel : s.usesSentinel = true
  · simp [wireNumPrb, hsentinel]
  · have hnot := eq_false_of_ne_true hsentinel
    have hpos : s.numPrb.toNat ≠ 0 := by
      simp only [usesSentinel, Bool.or_eq_false_iff] at hnot
      rw [hnot.1] at h
      simp at h
      omega
    simp [wireNumPrb, hnot, hpos]

end Section

/-! ## Section ids -/

namespace IdTagging

variable {tagging : IdTagging} {id : UInt16} {mu : Numerology} {wireId : ℕ}

/-- An id that can be tagged fits the bits that the tag leaves for it. -/
lemma lt_of_tag (h : tagging.tag id mu = .ok wireId) : id.toNat < 2 ^ tagging.baseBits := by
  simp only [tag, bind_eq_ok, check_eq_ok, not_lt] at h
  obtain ⟨_, -, hid, -⟩ := h
  exact hid.trans_lt (Nat.sub_one_lt (Nat.two_pow_pos _).ne')

lemma strip_tag (h : tagging.tag id mu = .ok wireId) : tagging.strip wireId = id := by
  have hlt := lt_of_tag h
  simp only [tag, bind_eq_ok, check_eq_ok] at h
  obtain ⟨_, -, -, h⟩ := h
  cases tagging with
  | untagged =>
    obtain rfl := pure_eq_ok.mp h
    rw [strip, UInt16.ofNat_toNat]
  | highBits bits =>
    obtain rfl := pure_eq_ok.mp h
    rw [strip, Nat.mul_add_mod', Nat.mod_eq_of_lt hlt, UInt16.ofNat_toNat]

/-- A tagged id fits the field for it. -/
lemma tag_lt (h : tagging.tag id mu = .ok wireId) : wireId < 2 ^ SectionWord.id.width := by
  have hlt := lt_of_tag h
  simp only [tag, bind_eq_ok, check_eq_ok] at h
  obtain ⟨_, hcheck, -, h⟩ := h
  cases tagging with
  | untagged =>
    obtain rfl := pure_eq_ok.mp h
    exact hlt
  | highBits bits =>
    obtain rfl := pure_eq_ok.mp h
    simp only [checkTag, guard_eq_ok, not_or, not_lt, not_le] at hcheck
    obtain ⟨⟨-, hbits⟩, hmu, -⟩ := hcheck
    have hsum : bits.toNat + (highBits bits).baseBits = SectionWord.id.width := by
      simp only [baseBits, SectionWord.id]
      omega
    calc mu.index * 2 ^ (highBits bits).baseBits + id.toNat
        < (mu.index + 1) * 2 ^ (highBits bits).baseBits := by
          rw [Nat.add_mul, Nat.one_mul]
          omega
      _ ≤ 2 ^ bits.toNat * 2 ^ (highBits bits).baseBits := Nat.mul_le_mul_right _ hmu
      _ = 2 ^ SectionWord.id.width := by rw [← pow_add, hsum]

end IdTagging

/-- A section that was read is understood as the section that was written. -/
lemma FlowContext.interpret_onWire {c : FlowContext} {s : Section} {type : SectionType}
    {header : MessageHeader} {mu : Numerology} {wireId : ℕ} {extended : Bool}
    (htag : c.tagging.tag s.id mu = .ok wireId) (hid : wireId < 2 ^ SectionWord.id.width)
    (hprbs : s.allPrbs = true ∨ 1 ≤ s.numPrb.toNat) :
    c.interpret header type (s.onWire type wireId extended) =
      s.received type header c.carrierPrbs extended := by
  obtain ⟨hwhole, hprb⟩ := Section.toNat_wireNumPrb hprbs
  unfold interpret Section.onWire Section.received
  dsimp only
  rw [Section.toNat_wireId hid, IdTagging.strip_tag htag]
  by_cases hsentinel : s.usesSentinel = true
  · simp [hwhole.mpr hsentinel, hsentinel]
  · have hnot := eq_false_of_ne_true hsentinel
    have hne : (UInt8.ofNat s.wireNumPrb).toNat ≠ 0 := fun h => hsentinel (hwhole.mp h)
    simp only [hprb hnot, hne, hnot, if_false, decide_false, Bool.false_eq_true]

end OpenFronthaul
