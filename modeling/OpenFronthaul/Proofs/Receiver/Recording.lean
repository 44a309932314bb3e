import OpenFronthaul.Proofs.Receiver.Reading
import OpenFronthaul.Proofs.Store.Changes
import OpenFronthaul.Proofs.Store.Contexts

/-!
# What a receiver records

A packet changes at most one bucket.  The sections that can be read, from the first one on
(`leading`), are appended one by one as long as there is room; the first of them empties the bucket
when it holds as many sections as the map has elements (`base`).  So the bucket in the end, the
counters, and whether the packet is a failure all follow from the sections that can be read and from
the room that there is for them (`decode_records`).
-/

namespace OpenFronthaul

open SectionStore

namespace Receiver

variable {c : FlowContext} {store : SectionStore} {key : SectionKey}

/-! ## One section -/

/-- What a bucket holds when the first section of a message is about to be recorded. -/
def base (c : FlowContext) (store : SectionStore) (key : SectionKey) : List Section :=
  match c.map with
  | some map => if map.size ≤ (store.entries key).length then [] else store.entries key
  | none => store.entries key

/-- What a bucket holds when the section at some place of a message is about to be recorded. -/
def baseAt (c : FlowContext) (store : SectionStore) (key : SectionKey) (index : Nat) :
    List Section :=
  if index = 0 then base c store key else store.entries key

lemma resetStale_eq (hkey : store.hasKey key = true) :
    ∃ after, resetStale c key store = .ok after ∧ Updates store key (base c store key) after := by
  unfold resetStale base
  cases c.map with
  | none => exact ⟨store, rfl, .refl store key⟩
  | some map =>
    simp only [size_eq_length]
    split_ifs
    · exact (Step.writes_reset hkey).after_eq
    · exact ⟨store, rfl, .refl store key⟩

/-- The store that a section is added to. -/
lemma exists_baseAt (c : FlowContext) (index : Nat) (hkey : store.hasKey key = true) :
    ∃ before, (if index = 0 then resetStale c key store else pure store) = .ok before ∧
      Updates store key (baseAt c store key index) before := by
  unfold baseAt
  split_ifs
  · exact resetStale_eq hkey
  · exact ⟨store, rfl, .refl store key⟩

/-- The steps of recording a section into a store. -/
lemma run_record_some {r : Receiver} (h : r.store = some store) (index : Nat) (info : Section) :
    (record c key index info).run r =
      match (if index = 0 then resetStale c key store else pure store : Except Error _) with
      | .error e => (.error e, r)
      | .ok before =>
        match before.add key info with
        | .error e => (.error e, { r with store := some before })
        | .ok after => (.ok (), { r with store := some after }) := by
  rw [record, run_bind, run_get]
  simp only [h]
  have htail : ∀ before : SectionStore,
      (do modify fun r => { r with store := some before }
          let store ← before.add key info
          modify fun r => { r with store := some store } : Step Unit).run r =
        match before.add key info with
        | .error e => (.error e, { r with store := some before })
        | .ok after => (.ok (), { r with store := some after }) := by
    intro before
    rw [run_bind, run_modify]
    dsimp only
    rw [run_bind, run_lift]
    rcases before.add key info with e | after
    · rfl
    · rfl
  split_ifs
  · rw [run_bind, run_lift]
    rcases resetStale c key store with e | before
    · rfl
    · exact htail before
  · exact htail store

/-- A section whose place is still free is recorded. -/
lemma run_record_of_room {r : Receiver} (h : r.store = some store) (hkey : store.hasKey key = true)
    (index : Nat) (info : Section)
    (hroom : (baseAt c store key index).length < store.capacity) :
    ∃ after, (record c key index info).run r = (.ok (), { r with store := some after }) ∧
      Updates store key (baseAt c store key index ++ [info]) after := by
  obtain ⟨before, hbefore, hupdates⟩ := exists_baseAt c index hkey
  have hentries := hupdates.entries_self
  obtain ⟨after, hafter, hupdates'⟩ := add_of_room info
    ((hupdates.hasKey_eq key).trans hkey) (by rw [hentries, hupdates.capacity_eq]; exact hroom)
  refine ⟨after, ?_, hentries ▸ hupdates.trans hupdates'⟩
  rw [run_record_some h, hbefore]
  simp only [hafter]

/-- A section without a free place is refused, but what was left over is gone by then. -/
lemma run_record_of_full {r : Receiver} (h : r.store = some store) (hkey : store.hasKey key = true)
    (index : Nat) (info : Section)
    (hfull : store.capacity ≤ (baseAt c store key index).length) :
    ∃ e after, (record c key index info).run r = (.error e, { r with store := some after }) ∧
      Updates store key (baseAt c store key index) after := by
  obtain ⟨before, hbefore, hupdates⟩ := exists_baseAt c index hkey
  have hentries := hupdates.entries_self
  have hadd := add_of_full info ((hupdates.hasKey_eq key).trans hkey)
    (by rw [hentries, hupdates.capacity_eq]; exact hfull)
  refine ⟨.bucketFull key before.capacity, before, ?_, hupdates⟩
  rw [run_record_some h, hbefore]
  simp only [hadd]

/-- A section for a key out of range is refused without any effect. -/
lemma run_record_of_not_hasKey {r : Receiver} (h : r.store = some store)
    (hkey : store.hasKey key = false) (index : Nat) (info : Section) :
    ∃ e, (record c key index info).run r = (.error e, r) := by
  -- a reset of a bucket that does not exist fails, and without a reset the store stays
  have hstay : ∀ before, (if index = 0 then resetStale c key store else pure store) = .ok before →
      before = store := by
    intro before hbefore
    have hreset : store.reset key = .error (.keyOutOfRange key) := by
      rw [SectionStore.reset, Step.after, Step.run_reset_of_not_hasKey hkey]
      rfl
    by_cases hindex : index = 0
    · rw [if_pos hindex, resetStale, hreset] at hbefore
      rcases hmap : c.map with _ | map
      · rw [hmap] at hbefore
        exact (Except.ok.inj hbefore).symm
      · simp only [hmap] at hbefore
        split_ifs at hbefore
        exact (Except.ok.inj hbefore).symm
    · rw [if_neg hindex] at hbefore
      exact (Except.ok.inj hbefore).symm
  rw [run_record_some h]
  split
  case h_1 e _ => exact ⟨e, rfl⟩
  case h_2 before hbefore =>
    obtain rfl := hstay before hbefore
    rw [add_of_not_hasKey info hkey, ← h]
    exact ⟨_, rfl⟩

/-! ## The sections of a message -/

/-- The sections of a message that can be read with all of their extensions, from the first one on;
the first one has the given place in the message. -/
def leading (c : FlowContext) (parsed : MessageHeader.Parsed) : Nat → Nat → Bytes → List Section
  | 0, _, _ => []
  | count + 1, index, data =>
    match body c parsed index data with
    | .ok (s, rest) => s.info :: leading c parsed count (index + 1) rest
    | .error _ => []

/-- What reading and recording some of the sections of a message comes to. -/
structure Outcome (c : FlowContext) (parsed : MessageHeader.Parsed) (key : SectionKey)
    (count index : Nat) (data : Bytes) (store : SectionStore) (before : ReceiveCounts)
    (result : Except Error (List ExtendedSection)) (after : Receiver) (recorded : Nat) : Prop where
  recorded_eq : recorded = min (leading c parsed count index data).length
    (store.capacity - (baseAt c store key index).length)
  /-- The sections that can be read are appended as far as there is room for them. -/
  store_eq : ∃ last, after.store = some last ∧
    (leading c parsed count index data = [] → last = store) ∧
    (leading c parsed count index data ≠ [] → Updates store key
      (baseAt c store key index ++ (leading c parsed count index data).take recorded) last)
  packets_eq : after.counts.packets = before.packets
  sections_eq : after.counts.sections = before.sections + recorded
  failures_eq : after.counts.failures = before.failures
  /-- There is a result when every section was recorded, and then it is what was read. -/
  result_of_eq : recorded = count →
    ∃ sections, bodies c parsed count index data = .ok sections ∧ result = .ok sections
  result_of_ne : recorded ≠ count → ∃ e, result = .error e

section Outcome

variable {parsed : MessageHeader.Parsed} {count index : Nat} {data rest : Bytes}
  {s : ExtendedSection} {before : ReceiveCounts} {next : SectionStore}

lemma leading_of_error {e : Error} (count : Nat) (h : body c parsed index data = .error e) :
    leading c parsed (count + 1) index data = [] := by
  simp [leading, h]

lemma leading_of_ok (count : Nat) (h : body c parsed index data = .ok (s, rest)) :
    leading c parsed (count + 1) index data =
      s.info :: leading c parsed count (index + 1) rest := by
  simp [leading, h]

/-- A section that cannot be read ends the message with nothing recorded from there on. -/
lemma outcome_of_error {e : Error} {r : Receiver} (h : r.store = some store)
    (hbody : body c parsed index data = .error e) {change : ReceiveCounts → ReceiveCounts}
    (hminor : Minor change) :
    Outcome c parsed key (count + 1) index data store r.counts (.error e)
      { r with counts := change r.counts } 0 := by
  have hleading := leading_of_error count hbody
  obtain ⟨hpackets, hsections, hfailures⟩ := hminor r.counts
  exact {
    recorded_eq := by simp [hleading]
    store_eq := ⟨store, h, fun _ => rfl, fun hne => absurd hleading hne⟩
    packets_eq := hpackets
    sections_eq := hsections
    failures_eq := hfailures
    result_of_eq := fun heq => absurd heq (by omega)
    result_of_ne := fun _ => ⟨e, rfl⟩ }

/-- A section without room ends the message as well, but what was left over is gone by then. -/
lemma outcome_of_full {e : Error} (hbody : body c parsed index data = .ok (s, rest))
    (hfull : store.capacity ≤ (baseAt c store key index).length)
    (hnext : Updates store key (baseAt c store key index) next)
    {change : ReceiveCounts → ReceiveCounts} (hminor : Minor change) :
    Outcome c parsed key (count + 1) index data store before (.error e)
      { counts := change before, store := some next } 0 := by
  have hleading := leading_of_ok count hbody
  obtain ⟨hpackets, hsections, hfailures⟩ := hminor before
  exact {
    recorded_eq := by omega
    store_eq := ⟨next, rfl, fun hnil => absurd hnil (by simp [hleading]),
      fun _ => by simpa using hnext⟩
    packets_eq := hpackets
    sections_eq := hsections
    failures_eq := hfailures
    result_of_eq := fun heq => absurd heq (by omega)
    result_of_ne := fun _ => ⟨e, rfl⟩ }

/-- A section that is recorded adds itself to what the rest of the message comes to. -/
lemma Outcome.cons (counts : ReceiveCounts) {result : Except Error (List ExtendedSection)}
    {after : Receiver}
    {recorded : Nat} (hbody : body c parsed index data = .ok (s, rest))
    (hroom : (baseAt c store key index).length < store.capacity)
    (hnext : Updates store key (baseAt c store key index ++ [s.info]) next)
    (hpackets : counts.packets = before.packets)
    (hsections : counts.sections = before.sections + 1)
    (hfailures : counts.failures = before.failures)
    (hout : Outcome c parsed key count (index + 1) rest next counts result after recorded) :
    Outcome c parsed key (count + 1) index data store before
      (do let sections ← result; return s :: sections) after (recorded + 1) := by
  have hleading := leading_of_ok count hbody
  have hbase : baseAt c next key (index + 1) = baseAt c store key index ++ [s.info] := by
    rw [baseAt, if_neg (by omega), hnext.entries_self]
  obtain ⟨last, hlast, hnil, hcons⟩ := hout.store_eq
  constructor
  case recorded_eq =>
    rw [hout.recorded_eq, hbase, hnext.capacity_eq, hleading]
    simp only [List.length_append, List.length_cons, List.length_nil]
    omega
  case store_eq =>
    refine ⟨last, hlast, fun hne => absurd hne (by simp [hleading]), fun _ => ?_⟩
    by_cases hmore : leading c parsed count (index + 1) rest = []
    · obtain rfl := hnil hmore
      simpa [hleading, hmore] using hnext
    · have := hnext.trans (hcons hmore)
      simpa [hleading, hbase] using this
  case packets_eq => exact hout.packets_eq.trans hpackets
  case sections_eq =>
    rw [hout.sections_eq]
    omega
  case failures_eq => exact hout.failures_eq.trans hfailures
  case result_of_eq =>
    intro heq
    obtain ⟨sections, hbodies, rfl⟩ := hout.result_of_eq (by omega)
    refine ⟨s :: sections, ?_, rfl⟩
    rw [bodies, hbody, ok_bind]
    dsimp only
    rw [hbodies]
    rfl
  case result_of_ne =>
    intro hne
    obtain ⟨e, rfl⟩ := hout.result_of_ne (by omega)
    exact ⟨e, rfl⟩

end Outcome

/-- Sections are read and recorded one after another.  By induction on their number: what the first
one leaves in the bucket is what the bucket holds when the second one comes. -/
lemma run_readSections_some (parsed : MessageHeader.Parsed) (slot count index : Nat) (data : Bytes)
    {r : Receiver} (h : r.store = some store) (hkey : store.hasKey key = true) :
    ∃ result after recorded,
      (readSections c parsed key slot count index data).run r = (result, after) ∧
      Outcome c parsed key count index data store r.counts result after recorded := by
  induction count generalizing index data r store with
  | zero =>
    exact ⟨.ok [], r, 0, rfl, by simp [leading], ⟨store, h, fun _ => rfl, fun hne => absurd rfl hne⟩,
      rfl, rfl, rfl, fun _ => ⟨[], rfl, rfl⟩, fun hne => absurd rfl hne⟩
  | succ count ih =>
    obtain ⟨change, hminor, hrun⟩ := run_readSection (c := c) parsed key slot index data
    obtain ⟨hpackets, hsections, hfailures⟩ := hminor r.counts
    rcases hbody : body c parsed index data with e | ⟨s, rest⟩
    · refine ⟨.error e, { r with counts := change r.counts }, 0, ?_, outcome_of_error h hbody hminor⟩
      rw [run_readSections_succ, hrun, hbody]
    -- with room the rest of the message starts from the store that the section left
    by_cases hroom : (baseAt c store key index).length < store.capacity
    · obtain ⟨next, hrecord, hnext⟩ := run_record_of_room
        (c := c) (r := { r with counts := change r.counts }) h hkey index s.info hroom
      obtain ⟨result, after, recorded, hrest, hout⟩ := ih (index + 1) rest
        (r := ⟨{ change r.counts with sections := (change r.counts).sections + 1 }, some next⟩)
        rfl ((hnext.hasKey_eq key).trans hkey)
      refine ⟨do let sections ← result; return s :: sections, after, recorded + 1, ?_,
        Outcome.cons { change r.counts with
          sections := (change r.counts).sections + 1 } hbody hroom hnext hpackets
          (congrArg (· + 1) hsections) hfailures hout⟩
      rw [run_readSections_succ, hrun, hbody]
      dsimp only
      rw [hrecord]
      dsimp only
      rw [hrest]
      cases result <;> rfl
    · obtain ⟨e, next, hrecord, hnext⟩ := run_record_of_full
        (c := c) (r := { r with counts := change r.counts }) h hkey index s.info (by omega)
      refine ⟨.error e, { counts := change r.counts, store := some next }, 0, ?_,
        outcome_of_full hbody (by omega) hnext hminor⟩
      rw [run_readSections_succ, hrun, hbody]
      dsimp only
      rw [hrecord]

/-- For a key out of range nothing is recorded, and the first section ends the message. -/
lemma run_readSections_of_not_hasKey (parsed : MessageHeader.Parsed) (slot count index : Nat)
    (data : Bytes) {r : Receiver} (h : r.store = some store) (hkey : store.hasKey key = false) :
    ∃ change e, Minor change ∧
      (readSections c parsed key slot (count + 1) index data).run r =
        (.error e, { r with counts := change r.counts }) := by
  obtain ⟨change, hminor, hrun⟩ := run_readSection (c := c) parsed key slot index data
  rcases hbody : body c parsed index data with e | ⟨s, rest⟩
  · refine ⟨change, e, hminor, ?_⟩
    rw [run_readSections_succ, hrun, hbody]
  · obtain ⟨e, hrecord⟩ := run_record_of_not_hasKey (c := c)
      (r := { r with counts := change r.counts }) h hkey index s.info
    refine ⟨change, e, hminor, ?_⟩
    rw [run_readSections_succ, hrun, hbody]
    dsimp only
    rw [hrecord]

/-! ## Packets -/

/-- The sections of a packet that can be read with all of their extensions, from the first one on;
none when the header is refused. -/
def readable (c : FlowContext) (data : Bytes) : List Section :=
  match acceptHeader data with
  | .ok parsed => leading c parsed parsed.sections 0 (data.drop parsed.type.headerLength)
  | .error _ => []

/-- The bucket of a packet, if its header is accepted. -/
def target? (c : FlowContext) (data : Bytes) : Option SectionKey :=
  match acceptHeader data with
  | .ok parsed => some (bucketKey c parsed)
  | .error _ => none

/-- The number of sections that a packet declares, if its header is accepted. -/
def declared? (data : Bytes) : Option Nat :=
  match acceptHeader data with
  | .ok parsed => some parsed.sections
  | .error _ => none

/-- The bucket that a packet changes: its own, when that is in range and the packet has a section
that can be read. -/
def changed? (c : FlowContext) (data : Bytes) (store : SectionStore) : Option SectionKey :=
  (target? c data).filter fun key => store.hasKey key && !(readable c data).isEmpty

/-- The sections of a packet that are recorded. -/
def recorded (c : FlowContext) (data : Bytes) (store : SectionStore) : List Section :=
  match changed? c data store with
  | some key => (readable c data).take (store.capacity - (base c store key).length)
  | none => []

/-- What taking in a packet comes to, for a receiver with a store. -/
structure Records (c : FlowContext) (data : Bytes) (counts : ReceiveCounts) (store : SectionStore)
    (outcome : Except Error Message × ReceiveCounts × SectionStore) : Prop where
  /-- The bucket of a packet is that of the direction in its first bit, of the carrier and the antenna
  of its flow, and of the slot in its header modulo four. -/
  key_eq : ∀ key, changed? c data store = some key → ∃ parsed, acceptHeader data = .ok parsed ∧
    key.direction = messageDirection data ∧ key.carrier = c.carrier ∧ key.antenna = c.antenna ∧
    key.context.toNat = c.mu.slotIndex parsed.header.slotTime % 4
  /-- The bucket of the packet gets the sections that can be read, as far as there is room for them,
  behind what it held before; all other buckets stay. -/
  bucket_eq : ∀ key, changed? c data store = some key →
    Updates store key (base c store key ++ recorded c data store) outcome.2.2
  /-- Without a section that can be read and a bucket for it, the store stays. -/
  store_eq : changed? c data store = none → outcome.2.2 = store
  /-- The packet is a success when every section that it declares was recorded. -/
  success_iff : (∃ m, outcome.1 = .ok m) ↔ declared? data = some (recorded c data store).length
  /-- Its message is then the one that it has without a store. -/
  message_eq : ∀ m, outcome.1 = .ok m → (parse c data counts).1 = .ok m
  packets_eq : outcome.2.1.packets = counts.packets + 1
  sections_eq : outcome.2.1.sections = counts.sections + (recorded c data store).length
  failures_eq : outcome.2.1.failures =
    counts.failures + (match outcome.1 with | .ok _ => 0 | .error _ => 1)

lemma key_of_changed? {data : Bytes} (h : changed? c data store = some key) :
    ∃ parsed, acceptHeader data = .ok parsed ∧ key.direction = messageDirection data ∧
      key.carrier = c.carrier ∧ key.antenna = c.antenna ∧
      key.context.toNat = c.mu.slotIndex parsed.header.slotTime % 4 := by
  have htarget := (Option.filter_eq_some_iff.mp h).1
  rcases haccept : acceptHeader data with e | parsed
  · simp [target?, haccept] at htarget
  · obtain rfl : bucketKey c parsed = key := by simpa [target?, haccept] using htarget
    exact ⟨parsed, rfl, direction_of_acceptHeader haccept, rfl, rfl, toNat_rotationContext _⟩

/-- The receiver of `decode` before it reads the message. -/
def opened (counts : ReceiveCounts) (store : SectionStore) : Receiver :=
  ⟨{ counts with packets := counts.packets + 1 }, some store⟩

section Packet

variable {parsed : MessageHeader.Parsed} {data : Bytes} {counts : ReceiveCounts}

lemma decode_of_error {e : Error} {after : Receiver}
    (h : (readMessage c data).run (opened counts store) = (.error e, after)) :
    decode c data counts store =
      (.error e, { after.counts with failures := after.counts.failures + 1 },
        after.store.getD store) := by
  have hopened : (⟨{ counts with packets := counts.packets + 1 }, some store⟩ : Receiver) =
      opened counts store := rfl
  rw [decode, run_receive, hopened, h]

lemma decode_of_ok {m : Message} {after : Receiver}
    (h : (readMessage c data).run (opened counts store) = (.ok m, after)) :
    decode c data counts store = (.ok m, after.counts, after.store.getD store) := by
  have hopened : (⟨{ counts with packets := counts.packets + 1 }, some store⟩ : Receiver) =
      opened counts store := rfl
  rw [decode, run_receive, hopened, h]

lemma records_of_refused {e : Error} (h : acceptHeader data = .error e) :
    Records c data counts store (decode c data counts store) := by
  have hread : (readMessage c data).run (opened counts store) =
      (.error e, opened counts store) := by
    rw [run_readMessage, h]
  rw [decode_of_error hread]
  have hchanged : changed? c data store = none := by simp [changed?, target?, h]
  have hrecorded : recorded c data store = [] := by rw [recorded, hchanged]
  constructor <;> simp [hchanged, hrecorded, declared?, h, opened]

lemma records_of_not_hasKey (h : acceptHeader data = .ok parsed)
    (hkey : store.hasKey (bucketKey c parsed) = false) :
    Records c data counts store (decode c data counts store) := by
  obtain ⟨-, hpos, -⟩ := acceptHeader_eq_ok.mp h
  obtain ⟨count, hcount⟩ : ∃ count, parsed.sections = count + 1 :=
    ⟨_, (Nat.succ_pred hpos.ne').symm⟩
  obtain ⟨change, e, hminor, hrun⟩ := run_readSections_of_not_hasKey (c := c) parsed
    (c.mu.slotIndex parsed.header.slotTime) count 0 (data.drop parsed.type.headerLength)
    (r := opened counts store) rfl hkey
  obtain ⟨hpackets, hsections, hfailures⟩ := hminor (opened counts store).counts
  have hread : (readMessage c data).run (opened counts store) =
      (.error e, { opened counts store with counts := change (opened counts store).counts }) := by
    rw [run_readMessage, h]
    dsimp only
    rw [hcount, hrun]
  rw [decode_of_error hread]
  have hchanged : changed? c data store = none := by simp [changed?, target?, h, hkey]
  have hrecorded : recorded c data store = [] := by rw [recorded, hchanged]
  constructor <;> simp [hchanged, hrecorded, declared?, h, hcount, hpackets, hsections, hfailures]
    <;> rfl

/-- The outcome for the sections of a packet is the outcome for the packet. -/
lemma Outcome.recorded_eq_take {result : Except Error (List ExtendedSection)} {after : Receiver}
    {n : Nat} (h : acceptHeader data = .ok parsed)
    (hkey : store.hasKey (bucketKey c parsed) = true)
    (hout : Outcome c parsed (bucketKey c parsed) parsed.sections 0
      (data.drop parsed.type.headerLength) store (opened counts store).counts result after n) :
    recorded c data store = (readable c data).take n ∧ (recorded c data store).length = n := by
  have hn := hout.recorded_eq
  have hbase : baseAt c store (bucketKey c parsed) 0 = base c store (bucketKey c parsed) := rfl
  have hreadable : readable c data =
      leading c parsed parsed.sections 0 (data.drop parsed.type.headerLength) := by
    rw [readable, h]
  rw [hbase, ← hreadable] at hn
  have htake : recorded c data store = (readable c data).take n := by
    rw [recorded, changed?, target?, h]
    rcases hreads : readable c data with _ | ⟨info, infos⟩
    · simp
    · simp only [Option.filter_some, hkey, List.isEmpty_cons, Bool.not_false, Bool.and_self,
        if_true]
      rw [hn, hreads, List.take_eq_take_iff]
      omega
  refine ⟨htake, ?_⟩
  rw [htake, List.length_take]
  omega

/-- The bucket that a packet changes, when the store has a bucket for it. -/
lemma changed?_of_hasKey (h : acceptHeader data = .ok parsed)
    (hkey : store.hasKey (bucketKey c parsed) = true) :
    changed? c data store = if readable c data = [] then none else some (bucketKey c parsed) := by
  rw [changed?, target?, h]
  by_cases hnil : readable c data = []
  · simp [hnil, Option.filter]
  · simp [hnil, hkey, Option.filter]

lemma records_of_hasKey (h : acceptHeader data = .ok parsed)
    (hkey : store.hasKey (bucketKey c parsed) = true) :
    Records c data counts store (decode c data counts store) := by
  obtain ⟨result, after, n, hrun, hout⟩ := run_readSections_some (c := c) parsed
    (c.mu.slotIndex parsed.header.slotTime) parsed.sections 0
    (data.drop parsed.type.headerLength) (r := opened counts store) rfl hkey
  obtain ⟨hrecorded, hlength⟩ := hout.recorded_eq_take h hkey
  obtain ⟨last, hlast, hnil, hcons⟩ := hout.store_eq
  have hreadable : readable c data =
      leading c parsed parsed.sections 0 (data.drop parsed.type.headerLength) := by
    rw [readable, h]
  rw [← hreadable] at hnil hcons
  rw [← hrecorded] at hcons
  have hdeclared : declared? data = some parsed.sections := by rw [declared?, h]
  have hbucket : ∀ key, changed? c data store = some key →
      Updates store key (base c store key ++ recorded c data store) last := by
    intro key hchanged
    rw [changed?_of_hasKey h hkey] at hchanged
    split_ifs at hchanged with hne
    obtain rfl := Option.some.inj hchanged
    exact hcons hne
  have hstore : changed? c data store = none → last = store := by
    intro hchanged
    rw [changed?_of_hasKey h hkey] at hchanged
    split_ifs at hchanged with hreadable
    exact hnil hreadable
  have hread : (readMessage c data).run (opened counts store) =
      (result.map (⟨parsed.direction, parsed.type, parsed.header, ·⟩), after) := by
    rw [run_readMessage, h]
    dsimp only
    rw [hrun]
    cases result <;> rfl
  -- either every declared section was recorded, or one of them ended the message
  by_cases hall : n = parsed.sections
  · obtain ⟨sections, hbodies, rfl⟩ := hout.result_of_eq hall
    have hmessage : (parse c data counts).1 =
        .ok ⟨parsed.direction, parsed.type, parsed.header, sections⟩ := by
      rw [parse_eq_message, message, h, ok_bind, hbodies]
      rfl
    rw [decode_of_ok hread, hlast]
    exact ⟨fun _ => key_of_changed?, hbucket, hstore, by simp [hdeclared, hlength, hall],
      fun m hm => hmessage.trans (hm ▸ rfl), hout.packets_eq,
      by rw [hlength]; exact hout.sections_eq, hout.failures_eq⟩
  · obtain ⟨e, rfl⟩ := hout.result_of_ne hall
    rw [decode_of_error hread, hlast]
    exact ⟨fun _ => key_of_changed?, hbucket, hstore,
      by simp [hdeclared, hlength, Ne.symm hall], by simp, hout.packets_eq,
      by rw [hlength]; exact hout.sections_eq, congrArg (· + 1) hout.failures_eq⟩

lemma records_of_accepted (h : acceptHeader data = .ok parsed) :
    Records c data counts store (decode c data counts store) := by
  rcases hkey : store.hasKey (bucketKey c parsed) with _ | _
  · exact records_of_not_hasKey h hkey
  · exact records_of_hasKey h hkey

end Packet

/-- The effect of a packet on the store alone: an update of its own bucket, or none. -/
lemma decode_updates (c : FlowContext) (data : Bytes) (counts : ReceiveCounts)
    (store : SectionStore) :
    (∀ key, changed? c data store = some key →
      Updates store key (base c store key ++ recorded c data store)
        (decode c data counts store).2.2) ∧
      (changed? c data store = none → (decode c data counts store).2.2 = store) := by
  have hrecords : Records c data counts store (decode c data counts store) := by
    rcases h : acceptHeader data with e | parsed
    · exact records_of_refused h
    · exact records_of_accepted h
  exact ⟨hrecords.bucket_eq, hrecords.store_eq⟩

/-- A packet changes at most its own bucket, which its header and its flow tell.  It is left with the
sections that can be read, as far as there is room for them, behind what it held before or, when that
was as many as the map has elements, alone.  The packet is a success exactly when this includes every
section that it declares, and its message is then the one that it has without a store.  The counters
of packets, sections and failures go along. -/
theorem decode_records (c : FlowContext) (data : Bytes) (counts : ReceiveCounts)
    (store : SectionStore) : Records c data counts store (decode c data counts store) := by
  rcases h : acceptHeader data with e | parsed
  · exact records_of_refused h
  · exact records_of_accepted h

end Receiver

end OpenFronthaul
