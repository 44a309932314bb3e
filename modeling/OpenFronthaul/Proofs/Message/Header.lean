import OpenFronthaul.Message.Header
import OpenFronthaul.Proofs.Extension.Block

/-!
# Headers and sections are read as they are written

The fixed parts of a message are words of fields.  A value that its writer accepts fits its field, so
every field is read as it was written, and what a header or a section does not carry comes back as
zero (`MessageHeader.parse_encode`).
-/

namespace OpenFronthaul

open Extension

lemma BitField.check_eq_ok {field : BitField} {name : WireField} {value : ℕ} :
    field.check name value = .ok () ↔ value < 2 ^ field.width := by
  unfold BitField.check
  rw [← fits_iff]
  split_ifs with h
  · simp [h, pure_eq_ok]
  · simp [h]

/-! ## The byte of the compression -/

lemma CompressionByte.parse_encode (compression : IqCompression) (iqWidth : UInt8) :
    parse (encode compression iqWidth).toNat =
      .ok (compression, SampleWidth.ofWire (SampleWidth.toWire iqWidth)) := by
  have hwire := SampleWidth.toWire_lt iqWidth
  have hbyte : (encode compression iqWidth).toNat =
      method.put (width.put 0 (SampleWidth.toWire iqWidth)) compression.code % 2 ^ 8 := by
    rw [encode, UInt8.toNat_ofNat']
  have hmethod : method.get (encode compression iqWidth).toNat = compression.code := by
    rw [hbyte, BitField.get_mod_two_pow (by decide),
      BitField.get_put_of_lt (by decide) compression.code_lt]
  have hwidth : width.get (encode compression iqWidth).toNat = SampleWidth.toWire iqWidth := by
    rw [hbyte, BitField.get_mod_two_pow (by decide),
      BitField.get_put_of_disjoint (by decide) (by decide),
      BitField.get_put_of_lt (by decide) hwire]
  rw [parse, hmethod, hwidth, IqCompression.ofCode?_code]
  rfl

/-- The direction that the first bit of a message names. -/
def messageDirection (message : Bytes) : Direction :=
  .ofBit ((message.headD 0).toNat / 128)

namespace MessageHeader

variable {h : MessageHeader} {direction : Direction} {type : SectionType}

/-- The fields that the first word of a header has bits enough for. -/
structure Fits (h : MessageHeader) : Prop where
  filterIndex : h.filterIndex.toNat < 2 ^ CommonWord.filterIndex.width
  subframe : h.subframe.toNat < 2 ^ CommonWord.subframe.width
  slot : h.slot.toNat < 2 ^ CommonWord.slot.width
  startSymbol : h.startSymbol.toNat < 2 ^ CommonWord.startSymbol.width

/-- All fields of the first word are read as they were written. -/
lemma get_commonWord (direction : Direction) (hfits : h.Fits) :
    CommonWord.direction.get (h.commonWord direction) = direction.bit ∧
    CommonWord.version.get (h.commonWord direction) = payloadVersion ∧
    CommonWord.filterIndex.get (h.commonWord direction) = h.filterIndex.toNat ∧
    CommonWord.frame.get (h.commonWord direction) = h.frame.toNat ∧
    CommonWord.subframe.get (h.commonWord direction) = h.subframe.toNat ∧
    CommonWord.slot.get (h.commonWord direction) = h.slot.toNat ∧
    CommonWord.startSymbol.get (h.commonWord direction) = h.startSymbol.toNat := by
  have hdirection : direction.bit < 2 ^ CommonWord.direction.width := direction.bit_lt
  have hversion : payloadVersion < 2 ^ CommonWord.version.width := by decide
  have hframe : h.frame.toNat < 2 ^ CommonWord.frame.width := h.frame.toNat_lt
  obtain ⟨hfilter, hsubframe, hslot, hsymbol⟩ := hfits
  simp (disch := first | decide | assumption) only [commonWord, BitField.get_put_of_lt,
    BitField.get_put_of_disjoint, and_self]

/-- A header as a receiver knows it: what only mixed sections carry is missing from any other. -/
def received (h : MessageHeader) (type : SectionType) : MessageHeader :=
  if type = .mixed then h
  else { h with timeOffset := 0, fftSize := 0, spacing := 0, cyclicPrefix := 0 }

/-- A header as it is read from the wire, where four bits are left for the sample width. -/
def onWire (h : MessageHeader) (type : SectionType) : MessageHeader :=
  { h.received type with iqWidth := SampleWidth.ofWire (SampleWidth.toWire h.iqWidth) }

lemma onWire_eq_received (hpos : 1 ≤ h.iqWidth.toNat) (hle : h.iqWidth.toNat ≤ 16) :
    h.onWire type = h.received type := by
  rw [onWire, SampleWidth.ofWire_toWire hpos hle, received]
  split_ifs
  · rfl
  · rfl

/-- The codes of the transform size and of the spacing share a byte. -/
lemma toNat_frameByte (hfft : h.fftSize.toNat < 16) (hspacing : h.spacing.toNat < 16) :
    FrameByte.fftSize.get (UInt8.ofNat (FrameByte.spacing.put
        (FrameByte.fftSize.put 0 h.fftSize.toNat) h.spacing.toNat)).toNat = h.fftSize.toNat ∧
      FrameByte.spacing.get (UInt8.ofNat (FrameByte.spacing.put
        (FrameByte.fftSize.put 0 h.fftSize.toNat) h.spacing.toNat)).toNat = h.spacing.toNat := by
  have hfft' : h.fftSize.toNat < 2 ^ FrameByte.fftSize.width := hfft
  have hspacing' : h.spacing.toNat < 2 ^ FrameByte.spacing.width := hspacing
  rw [UInt8.toNat_ofNat']
  simp (disch := first | decide | assumption) only [BitField.get_mod_two_pow,
    BitField.get_put_of_lt, BitField.get_put_of_disjoint, and_self]

/-- The part of a header for its type is read as it was written. -/
lemma parseTypePart_encodeTypePart {base : MessageHeader} {bytes : Bytes}
    (hencode : h.encodeTypePart type = .ok bytes)
    (hmixed : type = .mixed → h.fftSize.toNat ≤ 15 ∧ h.spacing.toNat ≤ 15)
    (hbase : base = { h with
      compression := .none, iqWidth := 0, timeOffset := 0, fftSize := 0, spacing := 0
      cyclicPrefix := 0 }) (rest : Bytes) :
    base.parseTypePart type (bytes ++ rest) = .ok (h.onWire type) ∧
      6 + bytes.length = type.headerLength ∧ type.isSupported = true := by
  have hcompression := CompressionByte.parse_encode h.compression h.iqWidth
  subst hbase
  cases type with
  | regular =>
    obtain rfl := pure_eq_ok.mp hencode
    refine ⟨?_, rfl, rfl⟩
    rw [parseTypePart, if_neg (by decide), if_neg (by simp)]
    simp only [List.cons_append, byteAt_cons_zero, hcompression, ok_bind]
    rfl
  | mixed =>
    obtain rfl := pure_eq_ok.mp hencode
    obtain ⟨hfft, hspacing⟩ := hmixed rfl
    obtain ⟨hgetFft, hgetSpacing⟩ := toNat_frameByte (Nat.lt_succ_of_le hfft)
      (Nat.lt_succ_of_le hspacing)
    refine ⟨?_, by simp [SectionType.headerLength], rfl⟩
    generalize hframe : UInt8.ofNat (FrameByte.spacing.put (FrameByte.fftSize.put 0
      h.fftSize.toNat) h.spacing.toNat) = frame at hgetFft hgetSpacing ⊢
    generalize hdata : Bytes.ofNat 2 h.timeOffset.toNat ++ [frame]
      ++ Bytes.ofNat 2 h.cyclicPrefix.toNat
      ++ [CompressionByte.encode h.compression h.iqWidth] ++ rest = data
    have htime : numberAt data 0 2 = h.timeOffset.toNat % 256 ^ 2 := by
      rw [← hdata]
      exact numberAt_ofNat h.timeOffset.toNat
    have hframeByte : byteAt data 2 = frame.toNat := by
      rw [← hdata]
      rfl
    have hprefix : numberAt data 3 2 = h.cyclicPrefix.toNat % 256 ^ 2 := by
      rw [← hdata]
      exact numberAt_ofNat h.cyclicPrefix.toNat
    have hwidth : byteAt data 5 = (CompressionByte.encode h.compression h.iqWidth).toNat := by
      rw [← hdata]
      rfl
    have hlong : 6 ≤ data.length := by
      rw [← hdata]
      simp
      omega
    rw [parseTypePart, if_pos rfl, if_neg (by omega), htime, hframeByte, hprefix, hwidth,
      hcompression, ok_bind]
    dsimp only
    rw [hgetFft, hgetSpacing, ofNat_toNat_mod, ofNat_toNat_mod, UInt8.ofNat_toNat,
      UInt8.ofNat_toNat]
    rfl
  | unused | scheduling | channelState | assistedAccess => cases hencode

/-- A header is read as it was written, whatever follows it. -/
theorem parse_encode {bytes : Bytes} {sections : ℕ}
    (hencode : h.encode direction type sections = .ok bytes)
    (hmixed : type = .mixed → h.fftSize.toNat ≤ 15 ∧ h.spacing.toNat ≤ 15)
    (hsections : sections < 256) (rest : Bytes) :
    parse (bytes ++ rest) = .ok ⟨direction, h.onWire type, sections, type⟩ ∧
      bytes.length = type.headerLength := by
  simp only [encode, bind_eq_ok, pure_eq_ok] at hencode
  obtain ⟨_, hfilter, _, hsubframe, _, hslot, _, hsymbol, part, hpart, rfl⟩ := hencode
  rw [BitField.check_eq_ok] at hfilter hsubframe hslot hsymbol
  obtain ⟨hdirection, hversion, hfilter', hframe, hsubframe', hslot', hsymbol'⟩ :=
    get_commonWord direction ⟨hfilter, hsubframe, hslot, hsymbol⟩
  obtain ⟨hparse, hlength, hsupported⟩ :=
    parseTypePart_encodeTypePart hpart hmixed rfl rest
  refine ⟨?_, by rw [← hlength]; simp; omega⟩
  -- the word, the count and the code stand at fixed places, and the part for the type behind them
  generalize hdata : Bytes.ofNat 4 (h.commonWord direction)
    ++ [UInt8.ofNat sections, UInt8.ofNat type.code] ++ part ++ rest = data
  have hword : numberAt data 0 4 = h.commonWord direction % 2 ^ 32 := by
    rw [← hdata]
    exact numberAt_ofNat (h.commonWord direction)
  have hcode : byteAt data 5 = type.code := by
    rw [← hdata]
    cases type <;> rfl
  have hcount : byteAt data 4 = sections := by
    have hbyte : byteAt data 4 = (UInt8.ofNat sections).toNat := by
      rw [← hdata]
      rfl
    rw [hbyte, UInt8.toNat_ofNat', Nat.mod_eq_of_lt hsections]
  have hdrop : data.drop 6 = part ++ rest := by
    rw [← hdata]
    rfl
  have hlong : 6 ≤ data.length := by
    rw [← hdata]
    simp
    omega
  rw [parse, if_neg (by omega), hword, hcode, hcount, hdrop]
  simp (disch := decide) only [BitField.get_mod_two_pow, hdirection, hversion, hfilter', hframe,
    hsubframe', hslot', hsymbol', UInt8.ofNat_toNat, SectionType.ofCode?_code, hsupported,
    Direction.ofBit_bit]
  rw [if_neg (by simp), if_neg (by simp), hparse]
  rfl

/-! ## What a reader accepts -/

variable {data : Bytes}

/-- The fields in the first word of a header. -/
def commonAt (data : Bytes) : MessageHeader where
  filterIndex := UInt8.ofNat (CommonWord.filterIndex.get (numberAt data 0 4))
  frame := UInt8.ofNat (CommonWord.frame.get (numberAt data 0 4))
  subframe := UInt8.ofNat (CommonWord.subframe.get (numberAt data 0 4))
  slot := UInt8.ofNat (CommonWord.slot.get (numberAt data 0 4))
  startSymbol := UInt8.ofNat (CommonWord.startSymbol.get (numberAt data 0 4))

/-- The steps of reading a header. -/
lemma parse_eq_ok {parsed : Parsed} : parse data = .ok parsed ↔
    6 ≤ data.length ∧ CommonWord.version.get (numberAt data 0 4) = payloadVersion ∧
      SectionType.ofCode? (byteAt data 5) = some parsed.type ∧ parsed.type.isSupported = true ∧
      (commonAt data).parseTypePart parsed.type (data.drop 6) = .ok parsed.header ∧
      parsed.direction = .ofBit (CommonWord.direction.get (numberAt data 0 4)) ∧
      parsed.sections = byteAt data 4 := by
  constructor
  · intro h
    rw [parse, check_eq_ok] at h
    obtain ⟨hlong, h⟩ := h
    rcases hcode : SectionType.ofCode? (byteAt data 5) with _ | type
    · simp only [hcode, check_eq_ok] at h
      cases h.2
    · simp only [hcode, check_eq_ok, bind_eq_ok, pure_eq_ok] at h
      obtain ⟨hversion, htype, header, hheader, rfl⟩ := h
      exact ⟨Nat.le_of_not_lt hlong, not_not.mp hversion, rfl, by simpa using htype, hheader, rfl, rfl⟩
  · obtain ⟨direction, header, sections, type⟩ := parsed
    rintro ⟨hlong, hversion, hcode, htype, hheader, rfl, rfl⟩
    rw [parse, check_eq_ok]
    simp only [hcode, check_eq_ok, bind_eq_ok, pure_eq_ok]
    exact ⟨Nat.not_lt_of_le hlong, not_not.mpr hversion, by simpa using htype, header, hheader, rfl⟩

/-- The steps of reading the part of a header for its type. -/
lemma parseTypePart_eq_ok {base header : MessageHeader} :
    base.parseTypePart type data = .ok header ↔
      if type = .mixed then
        6 ≤ data.length ∧ ∃ compression iqWidth,
          CompressionByte.parse (byteAt data 5) = .ok (compression, iqWidth) ∧
          header = { base with
            timeOffset := UInt16.ofNat (numberAt data 0 2)
            fftSize := UInt8.ofNat (FrameByte.fftSize.get (byteAt data 2))
            spacing := UInt8.ofNat (FrameByte.spacing.get (byteAt data 2))
            cyclicPrefix := UInt16.ofNat (numberAt data 3 2)
            compression, iqWidth }
      else
        2 ≤ data.length ∧ ∃ compression iqWidth,
          CompressionByte.parse (byteAt data 0) = .ok (compression, iqWidth) ∧
          header = { base with compression, iqWidth } := by
  rw [parseTypePart]
  by_cases htype : type = .mixed
  · rw [if_pos htype, if_pos htype]
    simp only [check_eq_ok, bind_eq_ok, pure_eq_ok, not_lt, Prod.exists, @eq_comm _ header]
  · rw [if_neg htype, if_neg htype]
    simp only [check_eq_ok, bind_eq_ok, pure_eq_ok, not_lt, Prod.exists, @eq_comm _ header]

lemma headerLength_le_length_of_parseTypePart {base header : MessageHeader}
    (h : base.parseTypePart type (data.drop 6) = .ok header) (hsupported : type.isSupported = true)
    (hlong : 6 ≤ data.length) : type.headerLength ≤ data.length := by
  rw [parseTypePart_eq_ok, List.length_drop] at h
  cases type with
  | mixed =>
    rw [if_pos rfl] at h
    have hlength : SectionType.mixed.headerLength = 12 := rfl
    omega
  | regular =>
    rw [if_neg (by decide)] at h
    have hlength : SectionType.regular.headerLength = 8 := rfl
    omega
  | unused | scheduling | channelState | assistedAccess => cases hsupported

lemma kind_of_parseTypePart_error {base : MessageHeader} {e : Error}
    (h : base.parseTypePart type data = .error e) : e.kind = .invalidPacket := by
  have hcompression : ∀ {byte : ℕ} {e : Error}, CompressionByte.parse byte = .error e →
      e.kind = .invalidPacket := by
    intro byte e h
    rw [CompressionByte.parse] at h
    split at h
    · cases h
    · cases h
      rfl
  rw [parseTypePart] at h
  split_ifs at h
  · cases h
    rfl
  · rcases bind_eq_error.mp h with h | ⟨_, -, h⟩
    · exact hcompression h
    · cases h
  · cases h
    rfl
  · rcases bind_eq_error.mp h with h | ⟨_, -, h⟩
    · exact hcompression h
    · cases h

/-- A header that is refused is malformed, or of a type that is not supported. -/
lemma kind_of_error {e : Error} (h : parse data = .error e) :
    e.kind = .invalidPacket ∨ 6 ≤ data.length ∧
      ∃ type, SectionType.ofCode? (byteAt data 5) = some type ∧ type.isSupported = false := by
  rw [parse, check_eq_error] at h
  rcases h with ⟨-, rfl⟩ | ⟨hlong, h⟩
  · exact .inl rfl
  rw [check_eq_error] at h
  rcases h with ⟨-, rfl⟩ | ⟨-, h⟩
  · exact .inl rfl
  rcases hcode : SectionType.ofCode? (byteAt data 5) with _ | type
  · rw [hcode] at h
    cases h
    exact .inl rfl
  rw [hcode] at h
  dsimp only at h
  rw [check_eq_error] at h
  rcases h with ⟨htype, -⟩ | ⟨-, h⟩
  · exact .inr ⟨Nat.le_of_not_lt hlong, type, rfl, by simpa using htype⟩
  · rcases bind_eq_error.mp h with h | ⟨_, -, h⟩
    · exact .inl (kind_of_parseTypePart_error h)
    · cases h

/-- A header that is read is all there. -/
lemma headerLength_le_length {parsed : Parsed} (h : parse data = .ok parsed) :
    parsed.type.headerLength ≤ data.length := by
  obtain ⟨hlong, -, -, hsupported, hheader, -, -⟩ := parse_eq_ok.mp h
  exact headerLength_le_length_of_parseTypePart hheader hsupported hlong

/-- The part of a header for its type lies within the header. -/
lemma parseTypePart_append {base header : MessageHeader} {used tail : Bytes}
    (hused : 6 + used.length = type.headerLength)
    (h : base.parseTypePart type (used ++ tail) = .ok header) (rest : Bytes) :
    base.parseTypePart type (used ++ rest) = .ok header := by
  rw [parseTypePart_eq_ok] at h ⊢
  split_ifs at h ⊢ with htype
  · subst htype
    have hsix : used.length = 6 := Nat.add_left_cancel hused
    rw [byteAt_append_left (by omega), byteAt_append_left (by omega),
      numberAt_append_left (by omega), numberAt_append_left (by omega)] at h ⊢
    refine ⟨?_, h.2⟩
    rw [List.length_append]
    omega
  · have htwo : 2 ≤ used.length := by
      have height : 8 ≤ type.headerLength := by cases type <;> decide
      omega
    rw [byteAt_append_left (by omega)] at h ⊢
    refine ⟨?_, h.2⟩
    rw [List.length_append]
    omega

/-- A header that is read has the direction of the first bit. -/
lemma direction_of_parse {parsed : Parsed} (h : parse data = .ok parsed) :
    parsed.direction = messageDirection data := by
  obtain ⟨hlong, -, -, -, -, hdirection, -⟩ := parse_eq_ok.mp h
  rcases data with _ | ⟨b₀, _ | ⟨b₁, _ | ⟨b₂, _ | ⟨b₃, rest⟩⟩⟩⟩
  all_goals try simp only [List.length_cons, List.length_nil] at hlong; omega
  have hbit : CommonWord.direction.get (Extension.numberAt (b₀ :: b₁ :: b₂ :: b₃ :: rest) 0 4) =
      b₀.toNat / 128 := by
    have h₀ := b₀.toNat_lt
    have h₁ := b₁.toNat_lt
    have h₂ := b₂.toNat_lt
    have h₃ := b₃.toNat_lt
    simp only [BitField.get, CommonWord.direction, Extension.numberAt, List.drop_zero,
      List.take_succ_cons, List.take_zero, Bytes.toNat, List.foldl_cons, List.foldl_nil]
    omega
  rw [hdirection, hbit]
  rfl

/-- What is read of a header does not depend on what follows it. -/
lemma parse_append {parsed : Parsed} {used tail : Bytes}
    (hused : used.length = parsed.type.headerLength)
    (h : parse (used ++ tail) = .ok parsed) (rest : Bytes) :
    parse (used ++ rest) = .ok parsed := by
  have hsix : 6 ≤ used.length := by
    rw [hused]
    cases parsed.type <;> decide
  rw [parse_eq_ok, commonAt, numberAt_append_left (by omega), byteAt_append_left (by omega),
    byteAt_append_left (by omega), List.drop_append_of_le_length hsix] at h ⊢
  obtain ⟨-, hversion, htype, hsupported, hheader, hfields⟩ := h
  refine ⟨?_, hversion, htype, hsupported, parseTypePart_append ?_ hheader rest, hfields⟩
  · rw [List.length_append]
    omega
  · rw [List.length_drop]
    omega

/-- A header that is cut short is malformed. -/
lemma kind_of_parse_take {parsed : Parsed} (h : parse data = .ok parsed) {n : ℕ}
    (hn : n < parsed.type.headerLength) :
    ∃ e, parse (data.take n) = .error e ∧ e.kind = .invalidPacket := by
  obtain ⟨-, -, htype, hsupported, -⟩ := parse_eq_ok.mp h
  rcases hcut : parse (data.take n) with e | cut
  · refine ⟨e, rfl, (kind_of_error hcut).resolve_right ?_⟩
    rintro ⟨hlong, type, hcode, hunsupported⟩
    rw [List.length_take] at hlong
    rw [byteAt_take (by omega), htype] at hcode
    cases hcode
    exact absurd hunsupported (by rw [hsupported]; decide)
  · obtain ⟨hlong, -, hcode, -⟩ := parse_eq_ok.mp hcut
    have hle := headerLength_le_length hcut
    rw [List.length_take] at hlong hle
    rw [byteAt_take (by omega), htype] at hcode
    obtain hsame := Option.some.inj hcode
    rw [← hsame] at hle
    omega

end MessageHeader

end OpenFronthaul
