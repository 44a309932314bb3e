import OpenFronthaul.Extension.Buffer
import OpenFronthaul.Proofs.Extension.Framing
import OpenFronthaul.Proofs.Extension.RoundTrip

/-!
# Extensions come whole or not at all

An extension is written to the end of a buffer piece by piece, and may be refused after some pieces.
What its contents write, or leave behind when they fail, only depends on the extension (`Writes`),
so a block is appended that is the one of `Extension.encode`, or the buffer is as before
(`Extension.run_write`).  What is appended ends where it says itself (`Extension.write_appends`).
-/

namespace OpenFronthaul

/-! ## Steps that append -/

section Writes

variable {α : Type} {body next : Writer Unit} {x y : Except Error Bytes}

/-- A step appends the given bytes to any buffer, or fails behind some of its own. -/
structure Writes (body : Writer Unit) (x : Except Error Bytes) : Prop where
  run_of_ok : ∀ {bytes}, x = .ok bytes → ∀ buffer, body.run buffer = (.ok (), buffer ++ bytes)
  run_of_error : ∀ {e}, x = .error e → ∀ buffer, ∃ left,
    body.run buffer = (.error e, buffer ++ left)

lemma Writes.congr (h : Writes body x) (heq : x = y) : Writes body y :=
  heq ▸ h

lemma writes_put (bytes : Bytes) : Writes (put bytes) (.ok bytes) where
  run_of_ok h _ := Except.ok.inj h ▸ rfl
  run_of_error := nofun

lemma writes_throw (e : Error) : Writes (throw e) (.error e) where
  run_of_ok := nofun
  run_of_error h buffer := ⟨[], by rw [List.append_nil]; exact Except.error.inj h ▸ rfl⟩

/-- A computation without a buffer comes first. -/
lemma writes_lift {x : Except Error α} {f : α → Writer Unit} {g : α → Except Error Bytes}
    (hf : ∀ a, Writes (f a) (g a)) : Writes (liftM x >>= f) (x >>= g) := by
  cases x with
  | error e => exact writes_throw e
  | ok a => exact hf a

/-- One step behind another. -/
lemma Writes.then (h : Writes body x) (h' : Writes next y) :
    Writes (do body; next) (do let bytes ← x; let more ← y; return bytes ++ more) := by
  cases x with
  | error e =>
    refine ⟨nofun, fun he buffer => ?_⟩
    obtain ⟨left, hrun⟩ := h.run_of_error rfl buffer
    exact ⟨left, by rw [run_bind, hrun]; exact Except.error.inj he ▸ rfl⟩
  | ok bytes =>
    have hrun := h.run_of_ok rfl
    cases y with
    | error e =>
      refine ⟨nofun, fun he buffer => ?_⟩
      obtain ⟨left, hleft⟩ := h'.run_of_error rfl (buffer ++ bytes)
      refine ⟨bytes ++ left, ?_⟩
      rw [run_bind, hrun, ← List.append_assoc]
      exact Except.error.inj he ▸ hleft
    | ok more =>
      refine ⟨fun hboth buffer => ?_, nofun⟩
      obtain rfl := Except.ok.inj hboth
      rw [run_bind, hrun, ← List.append_assoc]
      exact h'.run_of_ok rfl (buffer ++ bytes)

lemma Writes.check {p : Prop} [Decidable p] {γ : Type} {f : γ → Writer Unit} (h : Writes body x)
    (e : Error) : Writes (if p then throw e >>= f else body) (if p then .error e else x) := by
  split_ifs
  · exact writes_throw e
  · exact h

end Writes

/-! ## Contents -/

namespace Extension

/-- By induction on the beams, which are checked one by one as they are put. -/
lemma writes_writeBeams (beams : List UInt16) : Writes (writeBeams beams) (encodeBeams beams) := by
  induction beams with
  | nil =>
    refine ⟨fun h buffer => ?_, nofun⟩
    obtain rfl := Except.ok.inj h
    exact congrArg (Prod.mk _) (List.append_nil buffer).symm
  | cons beam beams ih =>
    have hcons : (beam :: beams).forM checkBeam =
        (checkBeam beam >>= fun _ => beams.forM checkBeam) := rfl
    refine Writes.congr ((writes_lift fun _ => writes_put _).then ih) ?_
    rw [encodeBeams, encodeBeams, hcons]
    cases checkBeam beam with
    | error e => rfl
    | ok _ => cases beams.forM checkBeam <;> rfl

end Extension

lemma WeightVector.writes_writeBody (v : WeightVector) : Writes v.writeBody v.encodeBody := by
  rw [writeBody]
  refine Writes.congr (writes_lift fun _ => (writes_put _).then <| writes_lift fun _ =>
    (writes_put _).then <| writes_lift fun _ => writes_put _) ?_
  simp only [encodeBody, ok_bind, bind_assoc, pure_bind, List.cons_append, List.nil_append]

lemma BeamAttributes.writes_writeBody (a : BeamAttributes) : Writes a.writeBody a.encodeBody :=
  writes_lift fun _ => .check (.congr ((writes_put _).then <| (writes_put _).then <|
    (writes_put _).then <| writes_put _) rfl) _

lemma Precoding.writes_writeBody (p : Precoding) : Writes p.writeBody p.encodeBody := by
  obtain ⟨layer, first⟩ := p
  cases first with
  | none => exact writes_lift fun _ => writes_lift fun _ => (writes_put _).then <| writes_put _
  | some first =>
    refine writes_lift fun _ => writes_lift fun _ => writes_lift fun _ => writes_lift fun _ =>
      .check (.check (.congr ((writes_put _).then <| (writes_put _).then <| (writes_put _).then <|
        (writes_put _).then <| (writes_put _).then <| Extension.writes_writeBeams _) ?_) _) _
    cases Extension.encodeBeams first.beams <;> rfl

lemma ModulationScaling.writes_writeBody (m : ModulationScaling) :
    Writes m.writeBody m.encodeBody :=
  .check (writes_put _) _

lemma ModulationSet.writes_writeBody (sets : List ModulationSet) :
    Writes (writeBody sets) (encodeBody sets) :=
  .check (writes_lift fun _ => writes_put _) _

lemma PrbGroups.writes_writeBody (g : PrbGroups) : Writes g.writeBody g.encodeBody :=
  writes_lift fun _ => .check (.check (.congr ((writes_put _).then <| writes_put _) rfl) _) _

lemma Technology.writes_writeBody (technology : Technology) :
    Writes technology.writeBody (.ok technology.encodeBody) :=
  .congr ((writes_put _).then <| writes_put _) rfl

lemma BeamGroup.writes_writeBody (g : BeamGroup) : Writes g.writeBody g.encodeBody := by
  obtain ⟨type, antennas, beams⟩ := g
  refine .check ?_ _
  cases type with
  | vectorList =>
    refine .congr ((writes_put _).then <| .check (Extension.writes_writeBeams beams) _) ?_
    dsimp only
    split_ifs
    · rfl
    · cases Extension.encodeBeams beams <;> rfl
  | common =>
    refine .congr ((writes_put _).then <| .check (writes_put _) _) ?_
    dsimp only
    split_ifs
    · rfl
    · rfl
  | matrix =>
    refine .congr ((writes_put _).then <| .check (writes_put _) _) ?_
    dsimp only
    split_ifs
    · rfl
    · rfl

lemma WeightBundles.writes_writeBody (b : WeightBundles) : Writes b.writeBody
    (.ok (UInt8.ofNat (b.beamsOnly.toNat * 128 + b.resetAfter.toNat * 64) :: b.bundlePrbs ::
      b.method.header b.width :: Bytes.ofNat 2 b.count.toNat)) :=
  .congr ((writes_put _).then <| (writes_put _).then <| (writes_put _).then <| writes_put _) rfl

/-! ## Blocks -/

namespace Extension

lemma writes_writeBody (e : Extension) : Writes e.writeBody e.contents := by
  cases e with
  | beamWeights v => exact v.writes_writeBody
  | beamAttributes a => exact a.writes_writeBody
  | precoding p => exact p.writes_writeBody
  | modulationScaling m => exact m.writes_writeBody
  | modulationSets s => exact ModulationSet.writes_writeBody s
  | prbGroups g => exact g.writes_writeBody
  | antennaMask m => exact writes_put _
  | regularization f => exact writes_put _
  | spectrumSharing t => exact t.writes_writeBody
  | beamGroup g => exact g.writes_writeBody
  | weightBundles b => exact b.writes_writeBody

lemma run_put (bytes buffer : Bytes) : (put bytes).run buffer = (.ok (), buffer ++ bytes) := rfl

/-- The length of a block is filled in behind the contents. -/
lemma set_length_of_block {kind : ExtensionKind} {more : Bool} {contents bytes : Bytes}
    (h : block kind more contents = .ok bytes) (buffer : Bytes) :
    (buffer ++ [typeByte kind more] ++ [(0 : UInt8)] ++ contents ++
      Bytes.zeros (buffer.length + blockLength contents.length -
        (buffer ++ [typeByte kind more] ++ [(0 : UInt8)] ++ contents).length)).set
          (buffer.length + 1) (UInt8.ofNat (blockLength contents.length / wordLength)) =
        buffer ++ bytes := by
  obtain ⟨rfl, -⟩ := block_eq_ok h
  have hzeros : buffer.length + blockLength contents.length -
      (buffer ++ [typeByte kind more] ++ [(0 : UInt8)] ++ contents).length =
        blockLength contents.length - (2 + contents.length) := by
    simp only [List.length_append, List.length_singleton]
    omega
  rw [hzeros, List.append_assoc, List.append_assoc, List.append_assoc,
    List.set_append_right (buffer.length + 1) _ (Nat.le_add_right _ 1), Nat.add_sub_cancel_left]
  rfl

/-- What is in the buffer when a block is given up, and when it is closed. -/
lemma run_writeBlock {kind : ExtensionKind} {more : Bool} {body : Writer Unit}
    {x : Except Error Bytes} (h : Writes body x) (buffer : Bytes) :
    (writeBlock kind more body).run buffer =
      match x >>= block kind more with
      | .ok bytes => (.ok bytes.length, buffer ++ bytes)
      | .error e => (.error e, buffer) := by
  have htake (left : Bytes) : (buffer ++ [typeByte kind more] ++ [0] ++ left).take buffer.length =
      buffer := by
    rw [List.append_assoc, List.append_assoc, List.take_left]
  simp only [writeBlock, run_bind, run_get, run_put, run_tryCatch]
  cases x with
  | error e =>
    obtain ⟨left, hrun⟩ := h.run_of_error rfl (buffer ++ [typeByte kind more] ++ [0])
    rw [hrun]
    dsimp only
    rw [run_modify]
    exact congrArg (Prod.mk _) (htake left)
  | ok contents =>
    rw [h.run_of_ok rfl]
    dsimp only
    have hlength : (buffer ++ [typeByte kind more] ++ [0] ++ contents).length - buffer.length =
        2 + contents.length := by
      simp only [List.length_append, List.length_singleton]
      omega
    rw [hlength, ok_bind]
    by_cases hlong : 255 < alignUp (2 + contents.length) wordLength / wordLength
    · rw [if_pos hlong, block, if_pos hlong]
      exact congrArg (Prod.mk _) (htake contents)
    · rcases hblock : block kind more contents with e | bytes
      · rw [block, if_neg hlong] at hblock
        cases hblock
      · rw [if_neg hlong, run_bind, run_modify]
        dsimp only
        rw [run_bind, run_modify]
        dsimp only
        have hset := set_length_of_block hblock buffer
        rw [blockLength] at hset
        rw [hset, length_block hblock]
        rfl

/-- The fixed part of an extension with bundles is checked before any of it is put. -/
lemma run_writeHeader (b : WeightBundles) (more : Bool) (buffer : Bytes) :
    (writeHeader b more).run buffer =
      match b.encodeHeader more with
      | .ok (header, zeros) => (.ok zeros, buffer ++ header)
      | .error e => (.error e, buffer) := by
  rw [writeHeader, WeightBundles.encodeHeader, run_bind, run_lift]
  cases WeightCompression.checkWidth b.width with
  | error e => rfl
  | ok _ =>
    dsimp only
    rw [ok_bind]
    split_ifs
    · rfl
    · have hbody := b.writes_writeBody.run_of_ok rfl
      simp only [run_bind, run_put, putNat, hbody]
      simp only [List.append_assoc, List.cons_append, List.nil_append]
      rfl

/-! ## Extensions -/

lemma write_of_short {e : Extension} (h : e.isBundles = false) (more : Bool) :
    e.write more = do return .inline (← writeBlock e.kind more e.writeBody) := by
  cases e with
  | weightBundles b => cases h
  | _ => rfl

/-- What is written is what is sent: a whole block, or the fixed part in front of the bundles. -/
lemma run_write (e : Extension) (more : Bool) (buffer : Bytes) :
    (e.write more).run buffer =
      match e.encode more with
      | .ok (.inline block) => (.ok (.inline block.length), buffer ++ block)
      | .ok (.split header payload zeros) => (.ok (.external payload zeros), buffer ++ header)
      | .error err => (.error err, buffer) := by
  rcases hbundles : e.isBundles with _ | _
  · rw [write_of_short hbundles, encode_of_short hbundles, run_bind,
      run_writeBlock e.writes_writeBody]
    rcases e.contents >>= block e.kind more with err | bytes
    · rfl
    · rfl
  · cases e with
    | weightBundles b =>
      rw [write, encode, run_bind, run_writeHeader]
      rcases b.encodeHeader more with err | ⟨header, zeros⟩
      · rfl
      · rfl
    | _ => cases hbundles

/-- A whole block for an extension. -/
structure Whole (e : Extension) (more : Bool) (block : Bytes) (length : ℕ) : Prop where
  length_eq : block.length = length
  length_pos : 0 < length
  length_dvd : 4 ∣ length
  length_le : length ≤ 1020
  /-- The kind and the chain bit come first, then the length in words, then what the extension
  writes, and at most three zeros close the block. -/
  bytes_eq : ∃ first words contents zeros,
    block = first :: words :: contents ++ Bytes.zeros zeros ∧
      first.toNat = more.toNat * 128 + e.kind.code ∧ words.toNat = length / 4 ∧
      e.writeBody.run [] = (.ok (), contents) ∧ zeros ≤ 3
  /-- It is read, whatever follows it, by a reader that knows the number of weights if there are
  any. -/
  decode_eq : ∀ weights rest, e.Delimited weights →
    decode (block ++ rest) weights = .ok ⟨e, more, length, length⟩

/-- The fixed part of an extension with bundles in front of their shared buffer. -/
structure Begun (e : Extension) (more : Bool) (header : Bytes) (payload : SharedBuffer)
    (zeros : ℕ) : Prop where
  buffer_eq : e.buffer? = some payload
  length_eq : header.length = 8
  head_eq : ∃ first rest, header = first :: rest ∧ first.toNat = more.toNat * 128 + e.kind.code
  /-- The length in words includes the shared buffer and the zeros. -/
  words_eq : numberAt header 1 2 * 4 = 8 + payload.bytes.length + zeros
  zeros_lt : zeros < 4
  /-- Whoever reads it finds this length and the chain bit, whatever number of weights is known. -/
  decode_eq : ∀ weights rest d,
    decode (header ++ payload.bytes ++ Bytes.zeros zeros ++ rest) weights = .ok d →
      d.length = 8 + payload.bytes.length + zeros ∧ d.more = more

lemma whole_of_encode {e : Extension} {more : Bool} {bytes : Bytes}
    (h : e.encode more = .ok (.inline bytes)) : e.Whole more bytes bytes.length := by
  have hbundles : e.isBundles = false := by
    cases e with
    | weightBundles b =>
      simp only [encode, bind_eq_ok, pure_eq_ok] at h
      obtain ⟨⟨header, zeros⟩, -, h⟩ := h
      cases h
    | _ => rfl
  have hwire : (Encoded.inline bytes).wire = bytes := List.append_nil bytes
  have hdecode (weights : Option UInt16) (rest : Bytes) (hdelimited : e.Delimited weights) :
      decode (bytes ++ rest) weights = .ok ⟨e, more, bytes.length, bytes.length⟩ := by
    have hread := decode_encode h hdelimited rest
    rwa [hwire, received_of_short hbundles] at hread
  obtain ⟨contents, zeros, words, hcontents, hwords, hlength, hexact, hbytes, hbytesLength⟩ :=
    encode_short_eq_ok hbundles h
  rw [hwire] at hbytes hbytesLength
  have haligned := blockLength_eq contents.length
  rw [List.length_append, Bytes.length_zeros] at hlength
  rw [wordLength] at hbytesLength hlength hexact
  refine ⟨rfl, ?_, ?_, ?_, ?_, hdecode⟩
  · omega
  · exact Dvd.intro_left words hbytesLength.symm
  · omega
  · refine ⟨_, _, contents, zeros, hbytes, toNat_typeByte e.kind more, ?_,
      e.writes_writeBody.run_of_ok hcontents [], ?_⟩
    · rw [hbytesLength, Nat.mul_div_cancel _ (by decide), UInt8.toNat_ofNat',
        Nat.mod_eq_of_lt (by omega)]
    · omega

lemma begun_of_encode {e : Extension} {more : Bool} {header : Bytes} {payload : SharedBuffer}
    {zeros : ℕ} (h : e.encode more = .ok (.split header payload zeros)) :
    e.Begun more header payload zeros := by
  cases e with
  | weightBundles b =>
    simp only [encode, bind_eq_ok, pure_eq_ok] at h
    obtain ⟨⟨header', zeros'⟩, hheader, h⟩ := h
    obtain ⟨rfl, rfl, rfl⟩ := Encoded.split.inj h
    obtain ⟨words, hpos, hle, htotal, hzeros, -, rfl⟩ := WeightBundles.encodeHeader_eq_ok hheader
    refine ⟨rfl, rfl, ⟨_, _, rfl, toNat_typeByte .weightBundles more⟩, ?_, by omega, ?_⟩
    · rw [numberAt, List.drop_one, List.tail_cons, List.take_left' (Bytes.length_ofNat 2 words),
        Bytes.toNat_ofNat, Nat.mod_eq_of_lt (by omega)]
      exact htotal.symm
    · intro weights rest d hd
      obtain ⟨opening, hopening, hlength, hmore, -⟩ := decode_eq_ok hd
      have hwords : words < 256 ^ ExtensionKind.weightBundles.lengthFieldSize :=
        Nat.lt_succ_of_le hle
      rw [List.append_assoc, List.append_assoc, List.cons_append, List.append_assoc] at hopening
      obtain rfl := Except.ok.inj
        (hopening.symm.trans (Opening.parse_typeByte .weightBundles more hpos hwords _))
      exact ⟨hlength.symm.trans htotal.symm, hmore.symm⟩
  | _ =>
    rw [encode_of_short rfl] at h
    simp only [bind_eq_ok, pure_eq_ok] at h
    obtain ⟨_, -, h⟩ := h
    cases h

/-- An extension is appended to a buffer as a block that says itself where it ends, or as the fixed
part of one, and an extension that is refused leaves nothing behind. -/
theorem write_appends (e : Extension) (more : Bool) (buffer : Bytes) :
    match (e.write more).run buffer with
    | (.error _, after) => after = buffer
    | (.ok (.inline length), after) =>
      ∃ block, after = buffer ++ block ∧ e.Whole more block length
    | (.ok (.external payload zeros), after) =>
      ∃ header, after = buffer ++ header ∧ e.Begun more header payload zeros := by
  rw [run_write]
  rcases h : e.encode more with err | ⟨bytes⟩ | ⟨header, payload, zeros⟩
  · rfl
  · exact ⟨bytes, rfl, whole_of_encode h⟩
  · exact ⟨header, rfl, begun_of_encode h⟩

end Extension

end OpenFronthaul
