import OpenFronthaul.Proofs.Message.Header
import OpenFronthaul.Proofs.Steps
import OpenFronthaul.Receiver
import Mathlib.Tactic

/-!
# What a receiver reads

Reading a section neither looks at the state of the receiver nor touches its store; it only counts
oddities of the extensions (`Reads`).  So what is read is a function of the packet and of what is
known of its flow: `chain` for a chain of extensions, `body` for a section with its extensions,
`bodies` for the sections of a message and `message` for a whole packet.  Without a store these
functions say all that a receiver does (`parse_eq_message`).
-/

namespace OpenFronthaul.Receiver

variable {α β : Type} {c : FlowContext}

/-! ## Steps that only read -/

/-- A change of the counters that says nothing of packets, sections and failures. -/
def Minor (change : ReceiveCounts → ReceiveCounts) : Prop :=
  ∀ counts, (change counts).packets = counts.packets ∧
    (change counts).sections = counts.sections ∧ (change counts).failures = counts.failures

/-- A step whose result does not depend on the state, and whose only effect are minor counters. -/
def Reads (step : Step α) (result : Except Error α) : Prop :=
  ∃ change, Minor change ∧ ∀ r, step.run r = (result, { r with counts := change r.counts })

lemma reads_lift (x : Except Error α) : Reads (liftM x) x :=
  ⟨id, fun _ => ⟨rfl, rfl, rfl⟩, fun r => run_lift x r⟩

lemma reads_pure (a : α) : Reads (pure a) (.ok a) :=
  reads_lift (.ok a)

lemma reads_throw (e : Error) : Reads (throw e : Step α) (.error e) :=
  reads_lift (.error e)

lemma run_count (change : ReceiveCounts → ReceiveCounts) (r : Receiver) :
    (count change).run r = (.ok (), { r with counts := change r.counts }) := rfl

lemma reads_count {change : ReceiveCounts → ReceiveCounts} (h : Minor change) :
    Reads (count change) (.ok ()) :=
  ⟨change, h, run_count change⟩

lemma Reads.bind {x : Step α} {result : Except Error α} {f : α → Step β}
    {g : α → Except Error β} (hx : Reads x result) (hf : ∀ a, Reads (f a) (g a)) :
    Reads (x >>= f) (result >>= g) := by
  obtain ⟨change, hminor, hrun⟩ := hx
  -- a failure ends the step with its own counts, a success adds those of what follows
  cases result with
  | error e =>
    refine ⟨change, hminor, fun r => ?_⟩
    rw [run_bind, hrun, error_bind]
  | ok a =>
    obtain ⟨change', hminor', hrun'⟩ := hf a
    refine ⟨change' ∘ change, fun counts => ?_, fun r => ?_⟩
    · obtain ⟨hp, hs, hf⟩ := hminor counts
      obtain ⟨hp', hs', hf'⟩ := hminor' (change counts)
      exact ⟨hp'.trans hp, hs'.trans hs, hf'.trans hf⟩
    · rw [run_bind, hrun, ok_bind]
      exact hrun' _

lemma Reads.after_count {change : ReceiveCounts → ReceiveCounts} {step : Step α}
    {result : Except Error α} (h : Minor change) (hstep : Reads step result) :
    Reads (do count change; step) result :=
  (reads_count h).bind (g := fun _ => result) fun _ => hstep

/-! ## Extensions and sections -/

/-- A chain of at most `room` extensions, with what follows it. -/
def chain (c : FlowContext) : Nat → Bytes → Except Error (List Extension × Bytes)
  | 0, _ => throw .chainTooLong
  | room + 1, data => do
    let d ← Extension.decode data c.weights
    let rest := data.drop d.length
    if d.more then
      let (extensions, rest) ← chain c room rest
      return (d.extension :: extensions, rest)
    else return ([d.extension], rest)

lemma minor_inspect (slot : Nat) (d : Extension.Decoded) : Minor (inspect c slot d) := by
  intro counts
  unfold inspect
  cases d.extension <;> cases c.technologies <;> dsimp only <;> split_ifs <;> simp

lemma reads_decodeChain (slot : Nat) (room : Nat) (data : Bytes) :
    Reads (decodeChain c slot room data) (chain c room data) := by
  induction room generalizing data with
  | zero => exact reads_throw _
  | succ room ih =>
    unfold decodeChain chain
    refine (reads_lift _).bind fun d => ?_
    refine Reads.after_count (minor_inspect slot d) ?_
    by_cases hmore : d.more = true
    · rw [if_pos hmore, if_pos hmore]
      exact (ih _).bind fun _ => reads_pure _
    · rw [if_neg hmore, if_neg hmore]
      exact reads_pure _

/-- The extensions of a section, if it has any, with what follows them. -/
def extensions (c : FlowContext) (extended : Bool) (data : Bytes) :
    Except Error (List Extension × Bytes) := do
  if !extended then return ([], data)
  else if c.isSounding then return ([], ← skipChain maxExtensions data)
  else chain c maxExtensions data

lemma reads_readExtensions (slot : Nat) (extended : Bool) (data : Bytes) :
    Reads (readExtensions c slot extended data) (extensions c extended data) := by
  unfold readExtensions extensions
  split_ifs
  · exact reads_pure _
  · exact (reads_lift _).bind fun _ => reads_pure _
  · exact reads_decodeChain slot _ _

/-- The section at the start of some data with its extensions, and what follows it.  The section has
the given place in its message. -/
def body (c : FlowContext) (parsed : MessageHeader.Parsed) (index : Nat) (data : Bytes) :
    Except Error (ExtendedSection × Bytes) := do
  let wire ← WireSection.parse data parsed.type
  let info ← c.applyMap index (c.interpret parsed.header parsed.type wire)
  let (extensions, rest) ← extensions c wire.extended (data.drop parsed.type.sectionLength)
  return (⟨info, extensions⟩, rest)

lemma reads_readBody (parsed : MessageHeader.Parsed) (slot index : Nat) (data : Bytes) :
    Reads (readBody c parsed slot index data) (body c parsed index data) := by
  unfold readBody body
  refine (reads_lift _).bind fun wire => ?_
  refine (reads_lift _).bind fun info => ?_
  split_ifs
  · refine Reads.after_count (fun _ => ⟨rfl, rfl, rfl⟩) ?_
    exact (reads_readExtensions slot _ _).bind fun _ => reads_pure _
  · exact (reads_readExtensions slot _ _).bind fun _ => reads_pure _

/-! ## Messages -/

/-- The given number of sections, of which the first has the given place in the message. -/
def bodies (c : FlowContext) (parsed : MessageHeader.Parsed) :
    Nat → Nat → Bytes → Except Error (List ExtendedSection)
  | 0, _, _ => return []
  | count + 1, index, data => do
    let (s, rest) ← body c parsed index data
    return s :: (← bodies c parsed count (index + 1) rest)

lemma acceptHeader_eq_ok {data : Bytes} {parsed : MessageHeader.Parsed} :
    acceptHeader data = .ok parsed ↔ MessageHeader.parse data = .ok parsed ∧
      0 < parsed.sections ∧ parsed.sections ≤ maxSections := by
  rw [acceptHeader, bind_eq_ok]
  constructor
  · rintro ⟨header, hparse, h⟩
    rw [guard_eq_ok] at h
    obtain ⟨hcount, h⟩ := h
    obtain rfl := Except.ok.inj h
    exact ⟨hparse, by omega, by omega⟩
  · rintro ⟨hparse, hpos, hle⟩
    refine ⟨parsed, hparse, ?_⟩
    rw [guard_eq_ok]
    exact ⟨by omega, rfl⟩

/-- A header that is accepted has the direction of the first bit. -/
lemma direction_of_acceptHeader {data : Bytes} {parsed : MessageHeader.Parsed}
    (h : acceptHeader data = .ok parsed) : parsed.direction = messageDirection data :=
  MessageHeader.direction_of_parse (acceptHeader_eq_ok.mp h).1

/-- The message of a packet. -/
def message (c : FlowContext) (data : Bytes) : Except Error Message := do
  let parsed ← acceptHeader data
  let sections ← bodies c parsed parsed.sections 0 (data.drop parsed.type.headerLength)
  return ⟨parsed.direction, parsed.type, parsed.header, sections⟩

/-- A section that cannot be read ends the step; one that can be read is recorded, and counted when
that succeeds. -/
lemma run_readSection (parsed : MessageHeader.Parsed) (key : SectionKey) (slot index : Nat)
    (data : Bytes) : ∃ change, Minor change ∧ ∀ r : Receiver,
      (readSection c parsed key slot index data).run r =
        match body c parsed index data with
        | .error e => (.error e, { r with counts := change r.counts })
        | .ok (s, rest) =>
          match (record c key index s.info).run { r with counts := change r.counts } with
          | (.error e, r) => (.error e, r)
          | (.ok _, r) =>
            (.ok (s, rest),
              { r with counts := { r.counts with sections := r.counts.sections + 1 } }) := by
  obtain ⟨change, hminor, hrun⟩ := reads_readBody (c := c) parsed slot index data
  refine ⟨change, hminor, fun r => ?_⟩
  rw [readSection, run_bind, hrun]
  rcases body c parsed index data with e | ⟨s, rest⟩
  · rfl
  · dsimp only
    rw [run_bind]
    rcases (record c key index s.info).run { r with counts := change r.counts } with ⟨_ | _, _⟩
    · rfl
    · rfl

lemma run_readSections_succ (parsed : MessageHeader.Parsed) (key : SectionKey)
    (slot count index : Nat) (data : Bytes) (r : Receiver) :
    (readSections c parsed key slot (count + 1) index data).run r =
      match (readSection c parsed key slot index data).run r with
      | (.error e, r) => (.error e, r)
      | (.ok (s, rest), r) =>
        match (readSections c parsed key slot count (index + 1) rest).run r with
        | (.error e, r) => (.error e, r)
        | (.ok sections, r) => (.ok (s :: sections), r) := by
  rw [readSections, run_bind]
  rcases (readSection c parsed key slot index data).run r with ⟨_ | ⟨s, rest⟩, r⟩
  · rfl
  · dsimp only
    rw [run_bind]
    rcases (readSections c parsed key slot count (index + 1) rest).run r with ⟨_ | _, _⟩
    · rfl
    · rfl

/-- What receiving a packet does, in terms of what reading its message does. -/
lemma run_receive (data : Bytes) (r : Receiver) :
    (receive c data).run r =
      match (readMessage c data).run
        { r with counts := { r.counts with packets := r.counts.packets + 1 } } with
      | (.ok m, r) => (.ok m, r)
      | (.error e, r) =>
        (.error e,
          { r with counts := { r.counts with failures := r.counts.failures + 1 } }) := by
  rw [receive, run_bind, run_count]
  dsimp only
  rw [run_tryCatch]
  rcases (readMessage c data).run _ with ⟨_ | _, _⟩
  · rfl
  · rfl

lemma run_readMessage (data : Bytes) (r : Receiver) :
    (readMessage c data).run r =
      match acceptHeader data with
      | .error e => (.error e, r)
      | .ok parsed =>
        match (readSections c parsed (bucketKey c parsed) (c.mu.slotIndex parsed.header.slotTime)
          parsed.sections 0 (data.drop parsed.type.headerLength)).run r with
        | (.error e, r) => (.error e, r)
        | (.ok sections, r) =>
          (.ok ⟨parsed.direction, parsed.type, parsed.header, sections⟩, r) := by
  rw [readMessage, run_bind, run_lift]
  rcases acceptHeader data with e | parsed
  · rfl
  · dsimp only
    rw [run_bind]
    rcases (readSections c parsed _ _ _ _ _).run r with ⟨_ | _, _⟩
    · rfl
    · rfl

/-! ## Without a store -/

lemma run_record_none {r : Receiver} (h : r.store = none) (key : SectionKey) (index : Nat)
    (info : Section) : (record c key index info).run r = (.ok (), r) := by
  rw [record, run_bind, run_get]
  simp only [h]
  rfl

/-- A receiver without a store reads the sections and goes on without a store. -/
lemma run_readSections_none (parsed : MessageHeader.Parsed) (key : SectionKey)
    (slot count index : Nat) (data : Bytes) {r : Receiver} (h : r.store = none) :
    ((readSections c parsed key slot count index data).run r).1 =
      bodies c parsed count index data := by
  induction count generalizing index data r with
  | zero => rfl
  | succ count ih =>
    obtain ⟨change, -, hrun⟩ := run_readSection (c := c) parsed key slot index data
    rw [run_readSections_succ, hrun, bodies]
    rcases body c parsed index data with e | ⟨s, rest⟩
    · rfl
    · have hrecord := run_record_none (c := c) (r := { r with counts := change r.counts }) h key
        index s.info
      have hrest := ih (index + 1) rest (r := { r with
        counts := { change r.counts with sections := (change r.counts).sections + 1 } }) h
      dsimp only
      rw [hrecord, ok_bind]
      dsimp only
      rw [← hrest]
      rcases (readSections c parsed key slot count (index + 1) rest).run _ with ⟨_ | _, _⟩
      · rfl
      · rfl

lemma run_readMessage_none (data : Bytes) {r : Receiver} (h : r.store = none) :
    ((readMessage c data).run r).1 = message c data := by
  rw [run_readMessage, message]
  rcases acceptHeader data with e | parsed
  · rfl
  · have hsections := run_readSections_none (c := c) parsed (bucketKey c parsed)
      (c.mu.slotIndex parsed.header.slotTime) parsed.sections 0
      (data.drop parsed.type.headerLength) h
    dsimp only
    rw [ok_bind, ← hsections]
    rcases (readSections c parsed _ _ _ _ _).run r with ⟨_ | _, _⟩
    · rfl
    · rfl

/-- Without a store a receiver gives the message of the packet. -/
theorem parse_eq_message (c : FlowContext) (data : Bytes) (counts : ReceiveCounts) :
    (parse c data counts).1 = message c data := by
  have hread := run_readMessage_none (c := c) data
    (r := { counts := { counts with packets := counts.packets + 1 } }) rfl
  rw [parse, run_receive, ← hread]
  dsimp only
  rcases (readMessage c data).run _ with ⟨_ | _, _⟩
  · rfl
  · rfl

/-! ## Steps without a mismatch -/

/-- A step that gives a result when there is no store, and counts no extension whose lengths differ. -/
def Yields (step : Step α) (a : α) : Prop :=
  ∀ r : Receiver, r.store = none → ∃ after : Receiver, step.run r = (.ok a, after) ∧
    after.store = none ∧ after.counts.lengthMismatches = r.counts.lengthMismatches

lemma yields_lift {x : Except Error α} {a : α} (h : x = .ok a) : Yields (liftM x) a := by
  subst h
  intro r hstore
  exact ⟨r, rfl, hstore, rfl⟩

lemma yields_pure (a : α) : Yields (pure a) a :=
  yields_lift (x := .ok a) rfl

lemma yields_count {change : ReceiveCounts → ReceiveCounts}
    (h : ∀ counts, (change counts).lengthMismatches = counts.lengthMismatches) :
    Yields (count change) () := by
  intro r hstore
  exact ⟨_, run_count change r, hstore, h r.counts⟩

lemma Yields.bind {x : Step α} {a : α} {f : α → Step β} {b : β} (hx : Yields x a)
    (hf : Yields (f a) b) : Yields (x >>= f) b := by
  intro r hstore
  obtain ⟨middle, hrun, hmiddle, hcounts⟩ := hx r hstore
  obtain ⟨after, hrun', hafter, hcounts'⟩ := hf middle hmiddle
  refine ⟨after, ?_, hafter, hcounts'.trans hcounts⟩
  rw [run_bind, hrun]
  exact hrun'

lemma yields_record (key : SectionKey) (index : Nat) (info : Section) :
    Yields (record c key index info) () := by
  intro r hstore
  exact ⟨r, run_record_none hstore key index info, hstore, rfl⟩

/-- What a packet yields is its message, and no mismatch is counted for it. -/
lemma Yields.parse_eq {data : Bytes} {m : Message} (h : Yields (readMessage c data) m)
    (counts : ReceiveCounts) : (parse c data counts).1 = .ok m ∧
      (parse c data counts).2.lengthMismatches = counts.lengthMismatches := by
  obtain ⟨after, hrun, -, hcounts⟩ :=
    h { counts := { counts with packets := counts.packets + 1 } } rfl
  rw [parse, run_receive, hrun]
  exact ⟨rfl, hcounts⟩

end OpenFronthaul.Receiver
