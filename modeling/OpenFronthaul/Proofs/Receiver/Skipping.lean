import OpenFronthaul.Proofs.Receiver.Elements
import OpenFronthaul.Proofs.Receiver.Framing

/-!
# Stepping over extensions

A sounding flow only steps over the chains of extensions that another flow reads.  Both loops end at
the same place (`skipChain_of_chain`), since every extension that can be read has as many bytes as
it announces.  So a message that is accepted outside the sounding window is also accepted inside it:
its sections have the resource blocks of the map and no extensions, and are the same in all else
(`sounded_of_accepted`).
-/

namespace OpenFronthaul

/-- A section with the resource blocks and the user data of a map element. -/
def Section.within (s : Section) (e : PrbElement) : Section :=
  { s with startPrb := e.startPrb, numPrb := e.numPrb, allPrbs := false, pointers := e.pointers }

/-- A section as it is read inside the sounding window, where it has a map element. -/
def ExtendedSection.sounded (e : PrbElement) (s : ExtendedSection) : ExtendedSection :=
  ⟨s.info.within e, []⟩

/-- A message as it is read inside the sounding window, where its sections have the elements of a
map. -/
def Message.sounded (m : Message) (map : PrbMap) : Message :=
  { m with sections := List.zipWith ExtendedSection.sounded map.elements m.sections }

namespace Receiver

variable {c c' : FlowContext} {map : PrbMap} {data rest : Bytes} {parsed : MessageHeader.Parsed}

/-! ## Chains that are stepped over -/

/-- A chain that can be read can be stepped over.  By induction on the room: every extension that
can be read has as many bytes as it announces. -/
lemma skipChain_of_chain {room : ℕ} {exts : List Extension}
    (h : chain c room data = .ok (exts, rest)) : skipChain room data = .ok rest := by
  induction room generalizing data exts with
  | zero => cases h
  | succ room ih =>
    rw [chain, bind_eq_ok] at h
    obtain ⟨d, hd, h⟩ := h
    obtain ⟨opening, hopening, hlength, hmore, hlong, -⟩ := Extension.decode_eq_ok hd
    have hopen : openBlock data = .ok opening := by
      rw [openBlock, hopening, ok_bind, if_neg (by omega)]
      rfl
    rw [skipChain_succ, hopen, ok_bind, hmore, hlength]
    by_cases hgoes : d.more = true
    · rw [if_pos hgoes] at h ⊢
      obtain ⟨⟨others, _⟩, hothers, h⟩ := bind_eq_ok.mp h
      cases h
      exact ih hothers
    · rw [if_neg hgoes] at h ⊢
      cases h
      rfl

/-- Only the number of weights matters for a chain. -/
lemma chain_congr (h : c.weights = c'.weights) (room : ℕ) (data : Bytes) :
    chain c room data = chain c' room data := by
  induction room generalizing data with
  | zero => rfl
  | succ room ih =>
    rw [chain, chain, h]
    simp only [ih]

/-- Extensions that can be read are none for a receiver that steps over them. -/
lemma extensions_of_sounding {extended : Bool} {exts : List Extension}
    (hplain : c.isSounding = false) (hsounding : c'.isSounding = true)
    (h : extensions c extended data = .ok (exts, rest)) :
    extensions c' extended data = .ok ([], rest) := by
  rw [extensions, hplain] at h
  rw [extensions, hsounding]
  cases extended with
  | false =>
    cases h
    rfl
  | true =>
    have hskip := skipChain_of_chain h
    simp only [Bool.not_true, Bool.false_eq_true, if_false, if_true, hskip, ok_bind]
    rfl

/-- The extensions of a section pass a receiver when another one can read them that knows the same
number of weights, or when they are only stepped over. -/
lemma extensions_of_plain {extended : Bool} {exts : List Extension} (hplain : c'.isSounding = false)
    (hweights : c.isSounding = true ∨ c.weights = c'.weights)
    (h : extensions c' extended data = .ok (exts, rest)) :
    ∃ exts', extensions c extended data = .ok (exts', rest) := by
  cases hsounding : c.isSounding with
  | true => exact ⟨[], extensions_of_sounding hplain hsounding h⟩
  | false =>
    have hsame := hweights.resolve_left (by rw [hsounding]; nofun)
    rw [extensions, hplain, ← funext (chain_congr hsame maxExtensions), ← hsounding] at h
    exact ⟨exts, h⟩

/-- What follows a chain starts behind it, within the data. -/
lemma exists_drop_of_chain {room : ℕ} {exts : List Extension}
    (h : chain c room data = .ok (exts, rest)) :
    ∃ n, 0 < n ∧ n ≤ data.length ∧ rest = data.drop n := by
  induction room generalizing data exts with
  | zero => cases h
  | succ room ih =>
    rw [chain, bind_eq_ok] at h
    obtain ⟨d, hd, h⟩ := h
    obtain ⟨opening, hopening, hlength, -, hlong, -⟩ := Extension.decode_eq_ok hd
    have hword : Extension.wordLength ≤ d.length :=
      hlength ▸ Extension.Opening.wordLength_le_length hopening
    have hpos : 0 < d.length := Nat.lt_of_lt_of_le (by decide) hword
    by_cases hgoes : d.more = true
    · rw [if_pos hgoes] at h
      obtain ⟨⟨others, _⟩, hothers, h⟩ := bind_eq_ok.mp h
      cases h
      obtain ⟨n, -, hn, hdrop⟩ := ih hothers
      rw [List.length_drop] at hn
      exact ⟨d.length + n, by omega, by omega, by rw [hdrop, List.drop_drop]⟩
    · rw [if_neg hgoes] at h
      cases h
      exact ⟨d.length, hpos, hlong, rfl⟩

/-! ## Sections inside the sounding window -/

/-- Of two receivers the one is outside the sounding window and the other one inside, where it goes
by a map. -/
structure Sounds (c c' : FlowContext) (map : PrbMap) : Prop where
  plain : c.isSounding = false
  sounding : c'.isSounding = true
  map_eq : c'.map = some map
  tagging_eq : c'.tagging = c.tagging

/-- Where a section is does not matter when it is moved. -/
lemma within_of_applyMap {index : ℕ} {info info' : Section} (h : c.applyMap index info = .ok info')
    (e : PrbElement) : info'.within e = info.within e := by
  rw [FlowContext.applyMap] at h
  split_ifs at h
  · split at h
    · obtain rfl := Except.ok.inj h
      rfl
    · cases h
  · obtain rfl := Except.ok.inj h
    rfl

/-- Where the blocks come from the map, the section at some place has those of the element there. -/
lemma applyMap_of_usesMap (huses : c.usesMap = true) (hmap : c.map = some map) {index : ℕ}
    {e : PrbElement} (he : map.get? index = some e) (info : Section) :
    c.applyMap index info = .ok (info.within e) := by
  have hget : c.map.bind (·.get? index) = some e := by
    rw [hmap]
    exact he
  rw [FlowContext.applyMap, if_pos huses, hget]
  rfl

lemma applyMap_of_sounds (h : Sounds c c' map) {index : ℕ} {e : PrbElement}
    (he : map.get? index = some e) (info : Section) :
    c'.applyMap index info = .ok (info.within e) :=
  applyMap_of_usesMap (by rw [FlowContext.usesMap, h.sounding, Bool.true_or]) h.map_eq he info

lemma interpret_within (h : Sounds c c' map) (header : MessageHeader) (type : SectionType)
    (s : WireSection) (e : PrbElement) :
    (c'.interpret header type s).within e = (c.interpret header type s).within e := by
  rw [FlowContext.interpret, FlowContext.interpret, h.tagging_eq]
  rfl

lemma body_of_sounds (h : Sounds c c' map) {index : ℕ} {e : PrbElement} {s : ExtendedSection}
    (he : map.get? index = some e) (hbody : body c parsed index data = .ok (s, rest)) :
    body c' parsed index data = .ok (s.sounded e, rest) := by
  simp only [body, bind_eq_ok, pure_eq_ok] at hbody
  obtain ⟨wire, hwire, info, hinfo, ⟨exts, others⟩, hexts, hs⟩ := hbody
  obtain ⟨rfl, rfl⟩ := Prod.mk.inj hs
  have hskip := extensions_of_sounding h.plain h.sounding hexts
  rw [body, hwire, ok_bind, applyMap_of_sounds h he, ok_bind, hskip, interpret_within h,
    ExtendedSection.sounded, within_of_applyMap hinfo]
  rfl

/-- By induction on the number of sections, each of which takes the next element of the map. -/
lemma bodies_of_sounds (h : Sounds c c' map) {count index : ℕ} {sections : List ExtendedSection}
    (hsize : index + sections.length ≤ map.size)
    (hbodies : bodies c parsed count index data = .ok sections) :
    bodies c' parsed count index data =
      .ok (List.zipWith ExtendedSection.sounded (map.elements.drop index) sections) := by
  induction count generalizing index data sections with
  | zero =>
    cases hbodies
    rw [List.zipWith_nil_right]
    rfl
  | succ count ih =>
    simp only [bodies, bind_eq_ok, pure_eq_ok] at hbodies
    obtain ⟨⟨s, others⟩, hbody, more, hmore, rfl⟩ := hbodies
    rw [List.length_cons] at hsize
    have hindex : index < map.elements.length := by
      rw [← PrbMap.size]
      omega
    have he : map.get? index = some map.elements[index] := List.getElem?_eq_getElem hindex
    rw [bodies, body_of_sounds h he hbody, ok_bind]
    dsimp only
    rw [ih (by omega) hmore, List.drop_eq_getElem_cons hindex, List.zipWith_cons_cons]
    rfl

lemma length_of_bodies {count index : ℕ} {sections : List ExtendedSection}
    (h : bodies c parsed count index data = .ok sections) : sections.length = count := by
  induction count generalizing index data sections with
  | zero =>
    cases h
    rfl
  | succ count ih =>
    simp only [bodies, bind_eq_ok, pure_eq_ok] at h
    obtain ⟨⟨s, others⟩, -, more, hmore, rfl⟩ := h
    rw [List.length_cons, ih hmore]

lemma message_of_sounds (h : Sounds c c' map) {m : Message}
    (hsize : m.sections.length ≤ map.size) (hm : message c data = .ok m) :
    message c' data = .ok (m.sounded map) := by
  simp only [message, bind_eq_ok, pure_eq_ok] at hm
  obtain ⟨parsed, haccept, sections, hsections, rfl⟩ := hm
  rw [message, haccept, ok_bind, bodies_of_sounds h (by rw [Nat.zero_add]; exact hsize) hsections]
  rfl

/-! ## Recording the sections -/

/-- Both receivers record into the same bucket, and the one inside the window empties it at least as
soon. -/
structure SharesBucket (c c' : FlowContext) (map : PrbMap) : Prop where
  mu_eq : c'.mu = c.mu
  carrier_eq : c'.carrier = c.carrier
  antenna_eq : c'.antenna = c.antenna
  size_le : ∀ old ∈ c.map, map.size ≤ old.size

lemma leading_of_bodies {count index : ℕ} {sections : List ExtendedSection}
    (h : bodies c parsed count index data = .ok sections) :
    leading c parsed count index data = sections.map ExtendedSection.info := by
  induction count generalizing index data sections with
  | zero =>
    cases h
    rfl
  | succ count ih =>
    simp only [bodies, bind_eq_ok, pure_eq_ok] at h
    obtain ⟨⟨s, others⟩, hbody, more, hmore, rfl⟩ := h
    rw [leading_of_ok count hbody, ih hmore, List.map_cons]

/-- A message that can be read has all of its sections to be recorded. -/
lemma length_readable_of_message {m : Message} (h : message c data = .ok m) :
    ∃ parsed, acceptHeader data = .ok parsed ∧ 0 < parsed.sections ∧
      (readable c data).length = parsed.sections := by
  simp only [message, bind_eq_ok, pure_eq_ok] at h
  obtain ⟨parsed, haccept, sections, hsections, -⟩ := h
  refine ⟨parsed, haccept, (acceptHeader_eq_ok.mp haccept).2.1, ?_⟩
  rw [readable, haccept]
  dsimp only
  rw [leading_of_bodies hsections, List.length_map, length_of_bodies hsections]

lemma length_base_le (h : Sounds c c' map) (hshares : SharesBucket c c' map) (store : SectionStore)
    (key : SectionKey) : (base c' store key).length ≤ (base c store key).length := by
  rw [base, base, h.map_eq]
  rcases hold : c.map with _ | old
  · dsimp only
    split_ifs
    · exact Nat.zero_le _
    · exact le_rfl
  · have hle := hshares.size_le old hold
    dsimp only
    split_ifs
    · exact le_rfl
    · exact Nat.zero_le _
    · omega
    · exact le_rfl

/-- A message that was recorded is the one of its packet. -/
lemma message_of_decode {m : Message} {counts : ReceiveCounts} {store : SectionStore}
    (h : (decode c data counts store).1 = .ok m) : message c data = .ok m := by
  rw [← parse_eq_message c data counts]
  rcases haccept : acceptHeader data with e | parsed
  · exact (records_of_refused haccept).message_eq m h
  · exact (records_of_target counts store (by rw [target?, haccept])).message_eq m h

/-- Where a message is recorded in full it is a success. -/
lemma decode_eq_ok_iff {m : Message} {counts : ReceiveCounts} {store : SectionStore}
    (haccept : acceptHeader data = .ok parsed) (hm : message c data = .ok m) :
    (decode c data counts store).1 = .ok m ↔ store.hasKey (bucketKey c parsed) = true ∧
      parsed.sections ≤ store.capacity - (base c store (bucketKey c parsed)).length := by
  obtain ⟨other, hother, hpos, hlength⟩ := length_readable_of_message hm
  obtain rfl : parsed = other := Except.ok.inj (haccept.symm.trans hother)
  have htarget : target? c data = some (bucketKey c parsed) := by rw [target?, haccept]
  have hrecords := records_of_target counts store htarget
  have hsuccess : (decode c data counts store).1 = .ok m ↔
      ∃ m, (decode c data counts store).1 = .ok m := by
    refine ⟨fun hdecode => ⟨m, hdecode⟩, ?_⟩
    rintro ⟨m', hdecode⟩
    rw [hdecode, Except.ok.inj (hm.symm.trans (message_of_decode hdecode))]
  have hne : (readable c data).isEmpty = false := by
    rw [List.isEmpty_eq_false_iff, ← List.length_pos_iff, hlength]
    exact hpos
  rw [hsuccess, hrecords.success_iff, declared?, haccept, Option.some_inj, recorded, changed?,
    htarget]
  rcases hkey : store.hasKey (bucketKey c parsed) with _ | _
  · simp [Option.filter, hkey, hpos.ne']
  · simp only [Option.filter, hkey, hne, Bool.not_false, Bool.and_self, if_true, List.length_take,
      hlength, true_and]
    omega

lemma decode_of_sounds (h : Sounds c c' map) (hshares : SharesBucket c c' map) {m : Message}
    (hsize : m.sections.length ≤ map.size) {counts counts' : ReceiveCounts} {store : SectionStore}
    (hdecode : (decode c data counts store).1 = .ok m) :
    (decode c' data counts' store).1 = .ok (m.sounded map) := by
  have hm := message_of_decode hdecode
  obtain ⟨parsed, haccept, -, -⟩ := length_readable_of_message hm
  have hkey : bucketKey c' parsed = bucketKey c parsed := by
    rw [bucketKey, bucketKey, hshares.mu_eq, hshares.carrier_eq, hshares.antenna_eq]
  obtain ⟨hhas, hroom⟩ := (decode_eq_ok_iff haccept hm).mp hdecode
  refine (decode_eq_ok_iff haccept (message_of_sounds h hsize hm)).mpr ?_
  have hle := length_base_le h hshares store (bucketKey c parsed)
  rw [hkey]
  exact ⟨hhas, by omega⟩

/-! ## Chains and messages -/

/-- Stepping over a chain of extensions ends where reading it ends, wherever the chain stands in a
packet and whatever is known of its flow.  So a message that is accepted outside the sounding window
is accepted inside it, if the map has an element for each of its sections: with the same header and
the same sections, but for the blocks and the user data of the elements, and without extensions. -/
theorem sounded_of_accepted (data : Bytes) :
    (∀ (c : FlowContext) (slot offset : ℕ) (exts : List Extension) (rest : Bytes)
        (r after : Receiver),
      (decodeChain c slot maxExtensions (data.drop offset)).run r = (.ok (exts, rest), after) →
        ∃ stop, offset < stop ∧ stop ≤ data.length ∧ rest = data.drop stop ∧
          skipChain maxExtensions (data.drop offset) = .ok (data.drop stop)) ∧
    ∀ (c c' : FlowContext) (map : PrbMap) (m : Message), Sounds c c' map →
      m.sections.length ≤ map.size →
        (∀ counts counts', (parse c data counts).1 = .ok m →
          (parse c' data counts').1 = .ok (m.sounded map)) ∧
        (SharesBucket c c' map → ∀ counts counts' store,
          (decode c data counts store).1 = .ok m →
            (decode c' data counts' store).1 = .ok (m.sounded map)) := by
  refine ⟨fun c slot offset exts rest r after hrun => ?_, fun c c' map m h hsize => ⟨?_, ?_⟩⟩
  · obtain ⟨change, -, hreads⟩ := reads_decodeChain (c := c) slot maxExtensions (data.drop offset)
    obtain ⟨hchain, -⟩ := Prod.mk.inj ((hreads r).symm.trans hrun)
    obtain ⟨n, hpos, hn, hdrop⟩ := exists_drop_of_chain hchain
    rw [List.drop_drop] at hdrop
    rw [List.length_drop] at hn
    refine ⟨offset + n, by omega, by omega, hdrop, ?_⟩
    rw [skipChain_of_chain hchain, hdrop]
  · intro counts counts' hparse
    rw [parse_eq_message] at hparse ⊢
    exact message_of_sounds h hsize hparse
  · exact fun hshares counts counts' store hdecode => decode_of_sounds h hshares hsize hdecode

end Receiver

namespace Receiver.OpeningWindow

/-- An element for each of two sections. -/
def map : PrbMap :=
  ⟨.ul, [{ startPrb := 12, numPrb := 24 }, { startPrb := 40, numPrb := 8 }]⟩

/-- A sounding flow. -/
def flow : FlowContext :=
  { soundingFlow with map := some map }

/-- The flow outside its window. -/
def plainFlow : FlowContext :=
  { flow with sounding := none }

/-- Two sections, the first one with three extensions, of which the second one announces a word more
than it has, and the other one with two; and two bytes behind them. -/
def packet : Bytes :=
  [0x10, 9, 0x00, 0x40, 2, 1, 0x91, 0,
   0, 0x10, 0, 8, 0xff, 0xf1, 0x80, 5,
   0x84, 1, 0x80, 0x12, 0x87, 2, 0xff, 0x0f, 1, 2, 3, 4, 9, 1, 1, 0,
   0, 0x20, 0, 4, 0xff, 0xf1, 0x80, 6,
   0x87, 1, 0xff, 0xff, 4, 1, 0, 1,
   7, 7]

/-- A receiver without sections. -/
def store : SectionStore :=
  ⟨1, 16, 4, Vector.replicate _ (.blank 4)⟩

/-- The extensions of the first section. -/
def extensions : List Extension :=
  [.modulationScaling ⟨true, 0x12⟩, .antennaMask 0xff0f, .spectrumSharing .nr]

/-- The extensions that are read outside the window, and stepped over inside it. -/
theorem sounded_of_accepted_chains :
    (∃ after, (decodeChain plainFlow 0 maxExtensions (packet.drop 16)).run {} =
        (.ok (extensions, packet.drop 32), after) ∧
      ∃ stop, 16 < stop ∧ stop ≤ packet.length ∧ packet.drop 32 = packet.drop stop ∧
        skipChain maxExtensions (packet.drop 16) = .ok (packet.drop stop)) ∧
    ∃ m, (parse plainFlow packet {}).1 = .ok m ∧ m.sections.map (·.extensions.length) = [3, 2] ∧
      (parse flow packet {}).1 = .ok (m.sounded map) ∧
      (decode plainFlow packet {} store).1 = .ok m ∧
      (decode flow packet {} store).1 = .ok (m.sounded map) := by
  obtain ⟨hchains, hmessages⟩ := sounded_of_accepted packet
  obtain ⟨after, hrun⟩ : ∃ after, (decodeChain plainFlow 0 maxExtensions (packet.drop 16)).run {} =
      (.ok (extensions, packet.drop 32), after) :=
    ⟨_, Prod.ext (by decide +kernel) rfl⟩
  have hlengths : (parse plainFlow packet {}).1.map
      (fun m => m.sections.map (·.extensions.length)) = .ok [3, 2] := by decide +kernel
  have hsame : (decode plainFlow packet {} store).1 = (parse plainFlow packet {}).1 := by
    decide +kernel
  rcases hparse : (parse plainFlow packet {}).1 with e | m
  · rw [hparse] at hlengths
    cases hlengths
  rw [hparse] at hlengths hsame
  have hextensions : m.sections.map (·.extensions.length) = [3, 2] := Except.ok.inj hlengths
  have hsize : m.sections.length = 2 := by
    simpa using congrArg List.length hextensions
  have hsounds : Sounds plainFlow flow map := ⟨rfl, rfl, rfl, rfl⟩
  have hshares : SharesBucket plainFlow flow map :=
    ⟨rfl, rfl, rfl, fun old hold => (congrArg PrbMap.size (Option.some.inj hold)).le⟩
  obtain ⟨hplain, hrecorded⟩ := hmessages plainFlow flow map m hsounds hsize.le
  exact ⟨⟨after, hrun, hchains plainFlow 0 16 extensions _ {} after hrun⟩, m, rfl, hextensions,
    hplain {} {} hparse, hsame, hrecorded hshares {} {} store hsame⟩

end Receiver.OpeningWindow

end OpenFronthaul
