import OpenFronthaul.Extension.Basic
import OpenFronthaul.Proofs.Steps
import OpenFronthaul.Proofs.Wire.Bytes

/-!
# Extensions are framed by their announced length

A reader of a stretch of a message may look at the bytes of the stretch and at nothing else: what
follows them makes no difference, and less than all of them is refused as malformed (`Decides`).  A
reader that leaves the rest of some data is `Framed` when the bytes that it takes decide on it, and
framed readers can follow one another (`Framed.bind`).  Reading an extension is framed by the length
that the extension announces (`framed_decode`).
-/

namespace OpenFronthaul

variable {α β : Type}

/-! ## Decisions -/

/-- A reader is decided on by some bytes: whatever follows them it succeeds, and a proper prefix of
them it refuses as malformed. -/
structure Decides (read : Bytes → Except Error α) (used : Bytes) (result : Bytes → α) : Prop where
  append : ∀ rest, read (used ++ rest) = .ok (result rest)
  take : ∀ n < used.length, ∃ e, read (used.take n) = .error e ∧ e.kind = .invalidPacket

/-- A cut through two stretches falls into the first one or leaves all of it. -/
lemma take_append_cases {used used' : Bytes} {n : ℕ} (hn : n < (used ++ used').length) :
    (n < used.length ∧ (used ++ used').take n = used.take n) ∨
      (n - used.length < used'.length ∧
        (used ++ used').take n = used ++ used'.take (n - used.length)) := by
  rw [List.length_append] at hn
  rcases Nat.lt_or_ge n used.length with hlt | hge
  · exact .inl ⟨hlt, List.take_append_of_le_length hlt.le⟩
  · refine .inr ⟨by omega, ?_⟩
    rw [List.take_append, List.take_of_length_le hge]

/-- The bytes of two readers that follow one another decide on both. -/
lemma Decides.bind {read : Bytes → Except Error (α × Bytes)} {next : α → Bytes → Except Error β}
    {used used' : Bytes} {a : α} {result : Bytes → β} (h : Decides read used fun rest => (a, rest))
    (h' : Decides (next a) used' result) :
    Decides (fun data => read data >>= fun x => next x.1 x.2) (used ++ used') result where
  append rest := by
    rw [List.append_assoc, h.append]
    exact h'.append rest
  take n hn := by
    rcases take_append_cases hn with ⟨hlt, htake⟩ | ⟨hlt, htake⟩
    · obtain ⟨e, he, hkind⟩ := h.take n hlt
      refine ⟨e, ?_, hkind⟩
      rw [htake, he]
      rfl
    · rw [htake, h.append]
      exact h'.take _ hlt

/-- A reader is decided on by some bytes at the start of any data that it can read. -/
def Settled (read : Bytes → Except Error α) : Prop :=
  ∀ data a, read data = .ok a →
    ∃ used tail, data = used ++ tail ∧ Decides read used fun _ => a

/-- A reader that leaves the rest of some data is decided on by what it does not leave. -/
def Framed (read : Bytes → Except Error (α × Bytes)) : Prop :=
  ∀ data a tail, read data = .ok (a, tail) →
    ∃ used, data = used ++ tail ∧ Decides read used fun rest => (a, rest)

lemma settled_pure (a : α) : Settled fun _ => .ok a := by
  rintro data _ ⟨⟩
  exact ⟨[], data, rfl, fun _ => rfl, nofun⟩

lemma framed_pure (a : α) : Framed fun data => .ok (a, data) := by
  rintro data _ _ ⟨⟩
  exact ⟨[], rfl, fun _ => rfl, nofun⟩

lemma framed_error (e : Error) : Framed fun _ => (.error e : Except Error (α × Bytes)) :=
  nofun

lemma Framed.congr {read read' : Bytes → Except Error (α × Bytes)} (h : Framed read)
    (heq : ∀ data, read' data = read data) : Framed read' := by
  rwa [show read' = read from funext heq]

lemma Settled.congr {read read' : Bytes → Except Error α} (h : Settled read)
    (heq : ∀ data, read' data = read data) : Settled read' := by
  rwa [show read' = read from funext heq]

lemma Framed.bind {read : Bytes → Except Error (α × Bytes)}
    {next : α → Bytes → Except Error (β × Bytes)} (h : Framed read) (h' : ∀ a, Framed (next a)) :
    Framed fun data => read data >>= fun x => next x.1 x.2 := by
  intro data b tail hread
  obtain ⟨⟨a, middle⟩, hfirst, hnext⟩ := bind_eq_ok.mp hread
  obtain ⟨used, rfl, hused⟩ := h data a middle hfirst
  obtain ⟨used', rfl, hused'⟩ := h' a middle b tail hnext
  exact ⟨used ++ used', (List.append_assoc ..).symm, hused.bind hused'⟩

lemma Framed.settled {read : Bytes → Except Error (α × Bytes)} {next : α → Bytes → Except Error β}
    (h : Framed read) (h' : ∀ a, Settled (next a)) :
    Settled fun data => read data >>= fun x => next x.1 x.2 := by
  intro data b hread
  obtain ⟨⟨a, middle⟩, hfirst, hnext⟩ := bind_eq_ok.mp hread
  obtain ⟨used, rfl, hused⟩ := h data a middle hfirst
  obtain ⟨used', tail, rfl, hused'⟩ := h' a middle b hnext
  exact ⟨used ++ used', tail, (List.append_assoc ..).symm, hused.bind hused'⟩

lemma Settled.map {read : Bytes → Except Error α} (h : Settled read) (f : α → β) :
    Settled fun data => do return f (← read data) := by
  intro data b hread
  obtain ⟨a, hfirst, hb⟩ := bind_eq_ok.mp hread
  obtain ⟨used, tail, rfl, hused⟩ := h data a hfirst
  obtain rfl := pure_eq_ok.mp hb
  refine ⟨used, tail, rfl, fun rest => ?_, fun n hn => ?_⟩
  · rw [hused.append]
    rfl
  · obtain ⟨e, he, hkind⟩ := hused.take n hn
    refine ⟨e, ?_, hkind⟩
    rw [he]
    rfl

/-- A reader of a stretch of known length takes the stretch off the data. -/
lemma framed_drop {read : Bytes → Except Error α} (length : α → ℕ)
    (h : ∀ data a, read data = .ok a → length a ≤ data.length ∧
      Decides read (data.take (length a)) fun _ => a) :
    Framed fun data => do let a ← read data; return (a, data.drop (length a)) := by
  intro data a tail hread
  simp only [bind_eq_ok, pure_eq_ok] at hread
  obtain ⟨a, hfirst, hrest⟩ := hread
  cases hrest
  obtain ⟨hle, hdecides⟩ := h data _ hfirst
  refine ⟨data.take (length a), (List.take_append_drop _ _).symm, fun rest => ?_, fun n hn => ?_⟩
  · have hdrop : (data.take (length a) ++ rest).drop (length a) = rest := by
      rw [List.drop_append_of_le_length (by simp [hle]), List.drop_take]
      simp
    simp only [hdecides.append, ok_bind, hdrop]
    rfl
  · obtain ⟨e, he, hkind⟩ := hdecides.take n hn
    refine ⟨e, ?_, hkind⟩
    simp only [he]
    rfl

/-! ## The start of a block -/

namespace Extension

namespace Opening

variable {data rest : Bytes} {opening : Opening}

/-- What the start of a block is made of. -/
lemma parse_eq_ok : parse data = .ok opening ↔
    ∃ first rest kind, data = first :: rest ∧
      ExtensionKind.ofCode? (first.toNat % 128) = some kind ∧
      kind.lengthFieldSize ≤ rest.length ∧
      Bytes.toNat (rest.take kind.lengthFieldSize) ≠ 0 ∧
      opening = ⟨128 ≤ first.toNat, kind,
        Bytes.toNat (rest.take kind.lengthFieldSize) * wordLength, 1 + kind.lengthFieldSize⟩ := by
  constructor
  · intro h
    cases data with
    | nil => cases h
    | cons first rest =>
      rcases hkind : ExtensionKind.ofCode? (first.toNat % 128) with _ | kind
      · simp only [parse, hkind] at h
        cases h
      · simp only [parse, hkind, guard_eq_ok, pure_eq_ok] at h
        obtain ⟨hlong, hwords, hopening⟩ := h
        exact ⟨first, rest, kind, rfl, hkind, Nat.le_of_not_lt hlong, hwords, hopening.symm⟩
  · rintro ⟨first, rest, kind, rfl, hkind, hlong, hwords, rfl⟩
    simp only [parse, hkind]
    rw [if_neg (Nat.not_lt_of_le hlong), if_neg hwords]
    rfl

/-- A block announces at least one word. -/
lemma wordLength_le_length (h : parse data = .ok opening) : wordLength ≤ opening.length := by
  obtain ⟨first, rest, kind, -, -, -, hwords, rfl⟩ := parse_eq_ok.mp h
  exact Nat.le_mul_of_pos_left wordLength (Nat.pos_of_ne_zero hwords)

/-- What the start of a block says stays when more data follows. -/
lemma parse_append (h : parse data = .ok opening) (more : Bytes) :
    parse (data ++ more) = .ok opening := by
  obtain ⟨first, rest, kind, rfl, hkind, hlong, hwords, rfl⟩ := parse_eq_ok.mp h
  refine parse_eq_ok.mpr ⟨first, rest ++ more, kind, rfl, hkind, ?_, ?_, ?_⟩
  · rw [List.length_append]
    omega
  · rwa [List.take_append_of_le_length hlong]
  · rw [List.take_append_of_le_length hlong]

/-- A whole block says the same as the data that it stands at the start of. -/
lemma parse_take_length (h : parse data = .ok opening) (hlong : opening.length ≤ data.length) :
    parse (data.take opening.length) = .ok opening := by
  have hword := wordLength_le_length h
  obtain ⟨first, rest, kind, rfl, hkind, hrest, hwords, rfl⟩ := parse_eq_ok.mp h
  -- the type and the length field lie within the first word
  have hsize : kind.lengthFieldSize ≤ 2 := by cases kind <;> decide
  obtain ⟨left, hleft⟩ : ∃ left, Bytes.toNat (rest.take kind.lengthFieldSize) * wordLength =
      left + 1 := Nat.exists_eq_add_one.mpr (hword.trans_lt' (by decide))
  have htake : (rest.take left).take kind.lengthFieldSize = rest.take kind.lengthFieldSize := by
    rw [List.take_take]
    congr 1
    unfold wordLength at hword hleft
    omega
  dsimp only
  rw [hleft, List.take_succ_cons]
  refine parse_eq_ok.mpr ⟨first, rest.take left, kind, rfl, hkind, ?_, ?_, ?_⟩
  · rw [List.length_take]
    unfold wordLength at hword hleft
    omega
  · rwa [htake]
  · rw [htake, hleft]

/-- A start of a block that cannot be read makes a packet malformed. -/
lemma kind_of_error {e : Error} (h : parse data = .error e) : e.kind = .invalidPacket := by
  cases data with
  | nil =>
    cases h
    rfl
  | cons first rest =>
    rcases hkind : ExtensionKind.ofCode? (first.toNat % 128) with _ | kind
    · simp only [parse, hkind] at h
      cases h
      rfl
    · simp only [parse, hkind] at h
      split_ifs at h
      · cases h
        rfl
      · cases h
        rfl
      · cases h

/-- A prefix of a block has the same start, or none that can be read. -/
lemma parse_take (h : parse data = .ok opening) (n : ℕ) :
    parse (data.take n) = .ok opening ∨
      ∃ e, parse (data.take n) = .error e ∧ e.kind = .invalidPacket := by
  rcases hcut : parse (data.take n) with e | cut
  · exact .inr ⟨e, rfl, kind_of_error hcut⟩
  · left
    have hall := parse_append hcut (data.drop n)
    rw [List.take_append_drop, h] at hall
    exact hall.symm

end Opening

/-- A block is decided on by the bytes that it announces, for a reader that takes no less and no more
of it. -/
lemma decides_block {α : Type} {read : Bytes → Except Error α} {data : Bytes} {opening : Opening}
    {a : α} (hopening : Opening.parse data = .ok opening) (hlong : opening.length ≤ data.length)
    (hok : ∀ rest, read (data.take opening.length ++ rest) = .ok a)
    (hshort : ∀ cut, Opening.parse cut = .ok opening → cut.length < opening.length →
      ∃ e, read cut = .error e ∧ e.kind = .invalidPacket)
    (herror : ∀ cut e, Opening.parse cut = .error e → read cut = .error e) :
    Decides read (data.take opening.length) fun _ => a where
  append := hok
  take n hn := by
    have hblock := Opening.parse_take_length hopening hlong
    rcases Opening.parse_take hblock n with hcut | ⟨e, hcut, hkind⟩
    · refine hshort _ hcut ?_
      simp only [List.length_take] at hn ⊢
      omega
    · exact ⟨e, herror _ e hcut, hkind⟩

end Extension

/-! ## Bundles of weights -/

open Extension

namespace WeightBundles

/-- What the fixed part of an extension says of its bundles. -/
def fixedPart (data : Bytes) (method : WeightCompression) : WeightBundles where
  beamsOnly := 128 ≤ byteAt data 3
  resetAfter := 64 ≤ byteAt data 3 % 128
  bundlePrbs := UInt8.ofNat (byteAt data 4)
  method := method
  width := SampleWidth.ofWire (byteAt data 5 / 16)
  count := UInt16.ofNat (numberAt data 6 2)
  payload := ⟨0, []⟩

variable {data used : Bytes} {length : ℕ} {weights : Option UInt16} {r : WeightBundles × ℕ}

/-- The steps of reading bundles. -/
lemma parse_eq_ok : parse data length weights = .ok r ↔
    max headerLength length ≤ data.length ∧ headerLength ≤ length ∧
      ∃ method taken, WeightCompression.ofHeader (byteAt data 5) = .ok method ∧
        (fixedPart data method).payloadLength (length - headerLength) weights = .ok taken ∧
        taken ≤ length - headerLength ∧
        r = ({ fixedPart data method with payload := ⟨0, (data.drop headerLength).take taken⟩ },
          alignUp (headerLength + taken) wordLength) := by
  simp only [parse, bind_eq_ok, require, guard_eq_ok, check_eq_ok, pure_eq_ok, not_lt]
  constructor
  · rintro ⟨_, ⟨hdata, -⟩, hlength, method, hmethod, taken, htaken, hpast, rfl⟩
    exact ⟨hdata, hlength, method, taken, hmethod, htaken, hpast, rfl⟩
  · rintro ⟨hdata, hlength, method, taken, hmethod, htaken, hpast, rfl⟩
    exact ⟨(), ⟨hdata, trivial⟩, hlength, method, hmethod, taken, htaken, hpast, rfl⟩

/-- Bundles lie within the length of their extension. -/
lemma parse_append {tail : Bytes} (hused : used.length = length)
    (h : parse (used ++ tail) length weights = .ok r) (rest : Bytes) :
    parse (used ++ rest) length weights = .ok r := by
  subst hused
  obtain ⟨-, hlong, method, taken, hmethod, htaken, hpast, rfl⟩ := parse_eq_ok.mp h
  have height : 8 ≤ used.length := hlong
  have hfixed : ∀ more method, fixedPart (used ++ more) method = fixedPart used method := by
    intro more method
    rw [fixedPart, byteAt_append_left (by omega), byteAt_append_left (by omega),
      byteAt_append_left (by omega), numberAt_append_left (by omega)]
    rfl
  have hpayload : ∀ more : Bytes, ((used ++ more).drop headerLength).take taken =
      (used.drop headerLength).take taken := by
    intro more
    rw [List.drop_append_of_le_length hlong,
      List.take_append_of_le_length (by rw [List.length_drop]; exact hpast)]
  rw [byteAt_append_left (by omega)] at hmethod
  rw [hfixed] at htaken
  refine parse_eq_ok.mpr ⟨?_, hlong, method, taken, ?_, ?_, hpast, ?_⟩
  · rw [List.length_append]
    omega
  · rwa [byteAt_append_left (by omega)]
  · rwa [hfixed]
  · rw [hfixed, hfixed, hpayload, hpayload]

end WeightBundles

/-! ## Extensions -/

namespace Extension

variable {data : Bytes} {weights : Option UInt16} {d : Decoded}

/-- The steps of reading an extension. -/
lemma decode_eq_ok (h : decode data weights = .ok d) :
    ∃ opening, Opening.parse data = .ok opening ∧ opening.length = d.length ∧
      opening.more = d.more ∧ d.length ≤ data.length ∧
      parseBody opening.kind
        (if opening.kind = .weightBundles then data
          else (data.take opening.length).drop opening.headerLength)
        opening.length weights = .ok (d.extension, d.consumed) := by
  simp only [decode, bind_eq_ok, pure_eq_ok] at h
  obtain ⟨opening, hopening, ⟨⟩, hrequire, ⟨extension, consumed⟩, hbody, rfl⟩ := h
  refine ⟨opening, hopening, rfl, rfl, ?_, hbody⟩
  rw [require, guard_eq_ok] at hrequire
  exact Nat.le_of_not_lt hrequire.1

/-- The contents of an extension are read from the bytes that it announces. -/
lemma parseBody_take {opening : Opening} {r : Extension × ℕ}
    (hlong : opening.length ≤ data.length)
    (h : parseBody opening.kind
      (if opening.kind = .weightBundles then data
        else (data.take opening.length).drop opening.headerLength)
      opening.length weights = .ok r) (rest : Bytes) :
    parseBody opening.kind
      (if opening.kind = .weightBundles then data.take opening.length ++ rest
        else ((data.take opening.length ++ rest).take opening.length).drop opening.headerLength)
      opening.length weights = .ok r := by
  have hlength : (data.take opening.length).length = opening.length := by
    rw [List.length_take]
    omega
  by_cases hkind : opening.kind = .weightBundles
  · -- bundles look at all of the data
    rw [if_pos hkind, hkind] at h ⊢
    simp only [parseBody, bind_eq_ok] at h ⊢
    obtain ⟨b, hparse, hb⟩ := h
    refine ⟨b, ?_, hb⟩
    rw [← List.take_append_drop opening.length data] at hparse
    exact WeightBundles.parse_append hlength hparse rest
  · rw [if_neg hkind] at h ⊢
    rwa [List.take_append_of_le_length hlength.ge, List.take_take, Nat.min_self]

/-- An extension is decided on by the bytes that it announces. -/
lemma decides_decode (h : decode data weights = .ok d) : d.length ≤ data.length ∧
    Decides (fun data => decode data weights) (data.take d.length) fun _ => d := by
  obtain ⟨opening, hopening, hlength, hmore, hle, hbody⟩ := decode_eq_ok h
  rw [← hlength] at hle ⊢
  refine ⟨hle, decides_block hopening hle (fun rest => ?_) (fun cut hcut hshort => ?_)
    fun cut e hcut => ?_⟩
  · have hblock := Opening.parse_append (Opening.parse_take_length hopening hle) rest
    have hall : opening.length ≤ (data.take opening.length ++ rest).length := by
      rw [List.length_append, List.length_take]
      omega
    rw [decode, hblock, ok_bind, require_of_le hall, ok_bind]
    dsimp only
    rw [parseBody_take hle hbody, ok_bind, hmore, hlength]
    rfl
  · refine ⟨.tooShort .extension opening.length cut.length, ?_, rfl⟩
    rw [decode, hcut, ok_bind, require, if_pos hshort]
    rfl
  · rw [decode, hcut]
    rfl

lemma framed_decode (weights : Option UInt16) :
    Framed fun data => do let d ← decode data weights; return (d, data.drop d.length) :=
  framed_drop _ fun _ _ h => decides_decode h

end Extension

end OpenFronthaul
