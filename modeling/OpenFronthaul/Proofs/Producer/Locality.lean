import OpenFronthaul.Emulation.DistributedUnit
import OpenFronthaul.Proofs.Lockstep
import OpenFronthaul.Proofs.Producer.Packets
import OpenFronthaul.Proofs.Store.Agreement

/-!
# The part of a producer that a direction uses

Building for a direction looks at the sequence numbers and the buckets of the direction and at
nothing else, and leaves those of the other direction alone.  So two producers that agree in this
part send the same and agree again (`lockstep_build`), whatever was built for the other direction in
between, and whether the build succeeds or not.

Packets are not counted against a pool here; the accounts of shared buffers do not matter then.
-/

namespace OpenFronthaul

/-- Without a pool, writing a message depends on the message alone. -/
lemma Message.run_encode_of_pool {memory : Memory} (h : memory.pool = none) (m : Message)
    (mu : Numerology) (tagging : IdTagging) :
    ∃ after, after.pool = none ∧ (m.encode mu tagging).run memory =
      ((do m.validate; return { segments := ← m.segments mu tagging }), after) := by
  have htake : liftLink memory.takeSlot = .ok memory := by
    rw [Memory.takeSlot, h]
    rfl
  rw [encode, run_bind, run_lift]
  cases m.validate with
  | error e => exact ⟨memory, h, rfl⟩
  | ok valid =>
    dsimp only
    rw [run_bind, run_get]
    dsimp only
    rw [htake, run_bind, run_lift]
    dsimp only
    rw [h]
    cases m.segments mu tagging with
    | error e => exact ⟨memory, h, rfl⟩
    | ok segments => exact ⟨memory.attachAll segments, (Memory.pool_attachAll _ _).trans h, rfl⟩

namespace Producer

/-- Counts that have grown alike since two earlier ones. -/
structure GrownAlike (left₀ right₀ left right : ProducerCounts) : Prop where
  packets : left.packets + right₀.packets = right.packets + left₀.packets
  sections : left.sections + right₀.sections = right.sections + left₀.sections
  skipped : left.skipped + right₀.skipped = right.skipped + left₀.skipped

namespace GrownAlike

variable {left₀ right₀ left right left' right' : ProducerCounts}

/-- What one pair has in common the other pair has in common as well. -/
lemma swap (h : GrownAlike left₀ right₀ left right) : GrownAlike right right₀ left left₀ :=
  ⟨h.packets.trans (Nat.add_comm _ _), h.sections.trans (Nat.add_comm _ _),
    h.skipped.trans (Nat.add_comm _ _)⟩

lemma trans (h : GrownAlike left₀ right₀ left right) (h' : GrownAlike left right left' right') :
    GrownAlike left₀ right₀ left' right' := by
  obtain ⟨hpackets, hsections, hskipped⟩ := h
  obtain ⟨hpackets', hsections', hskipped'⟩ := h'
  constructor <;> omega

/-- Counts that grew like the same ones are the same. -/
lemma eq (h : GrownAlike left₀ right₀ left right) (h' : GrownAlike left₀ right₀ left' right) :
    left = left' := by
  obtain ⟨hpackets, hsections, hskipped⟩ := h
  obtain ⟨hpackets', hsections', hskipped'⟩ := h'
  cases left
  cases left'
  simp only [ProducerCounts.mk.injEq] at *
  omega

end GrownAlike

/-- Producers that have the same settings, and the same numbers and sections of some direction. -/
structure AgreesOn (directions : Direction → Prop) (left right : Producer) : Prop where
  settings : left.settings = right.settings
  store : left.store.AgreesOn (fun key => directions key.direction) right.store
  sequence : ∀ flow, directions flow.direction → left.nextSequence flow = right.nextSequence flow

lemma AgreesOn.refl (directions : Direction → Prop) (p : Producer) : AgreesOn directions p p :=
  ⟨rfl, .refl _ _, fun _ _ => rfl⟩

lemma AgreesOn.symm {directions : Direction → Prop} {left right : Producer}
    (h : AgreesOn directions left right) : AgreesOn directions right left :=
  ⟨h.settings.symm, h.store.symm, fun flow hflow => (h.sequence flow hflow).symm⟩

lemma AgreesOn.trans {directions : Direction → Prop} {left right third : Producer}
    (h : AgreesOn directions left right) (h' : AgreesOn directions right third) :
    AgreesOn directions left third :=
  ⟨h.settings.trans h'.settings, h.store.trans h'.store,
    fun flow hflow => (h.sequence flow hflow).trans (h'.sequence flow hflow)⟩

lemma AgreesOn.mono {directions fewer : Direction → Prop} {left right : Producer}
    (h : AgreesOn directions left right) (hfewer : ∀ d, fewer d → directions d) :
    AgreesOn fewer left right :=
  ⟨h.settings, h.store.mono fun key => hfewer key.direction,
    fun flow hflow => h.sequence flow (hfewer _ hflow)⟩

/-- Two producers at the same point of work for a direction that they began in two states: they
agree on the direction, and each is as it was for the other one. -/
structure Twins (d : Direction) (left₀ right₀ left right : Producer) : Prop where
  own : AgreesOn (· = d) left right
  other_left : AgreesOn (· ≠ d) left₀ left
  other_right : AgreesOn (· ≠ d) right₀ right
  pool_left : left.memory.pool = none
  pool_right : right.memory.pool = none
  counts : GrownAlike left₀.counts right₀.counts left.counts right.counts

variable {d : Direction} {left₀ right₀ left right : Producer}

namespace Twins

lemma begin (h : AgreesOn (· = d) left right) (hleft : left.memory.pool = none)
    (hright : right.memory.pool = none) : Twins d left right left right where
  own := h
  other_left := .refl _ _
  other_right := .refl _ _
  pool_left := hleft
  pool_right := hright
  counts := ⟨Nat.add_comm _ _, Nat.add_comm _ _, Nat.add_comm _ _⟩

/-- The accounts of shared buffers do not matter. -/
lemma memory (h : Twins d left₀ right₀ left right) {memory memory' : Memory}
    (hleft : memory.pool = none) (hright : memory'.pool = none) :
    Twins d left₀ right₀ { left with memory } { right with memory := memory' } where
  own := ⟨h.own.settings, h.own.store, h.own.sequence⟩
  other_left := ⟨h.other_left.settings, h.other_left.store, h.other_left.sequence⟩
  other_right := ⟨h.other_right.settings, h.other_right.store, h.other_right.sequence⟩
  pool_left := hleft
  pool_right := hright
  counts := h.counts

lemma tookNumber (h : Twins d left₀ right₀ left right) {flow : Flow} (hflow : flow.direction = d) :
    Twins d left₀ right₀ (left.tookNumber flow left.memory)
      (right.tookNumber flow right.memory) where
  own := by
    refine ⟨h.own.settings, h.own.store, fun other hother => ?_⟩
    rw [nextSequence_tookNumber, nextSequence_tookNumber, h.own.sequence other hother]
  other_left := by
    refine ⟨h.other_left.settings, h.other_left.store, fun other hother => ?_⟩
    have hne : other ≠ flow := fun heq => hother (heq ▸ hflow)
    rw [nextSequence_tookNumber, if_neg hne, h.other_left.sequence other hother]
  other_right := by
    refine ⟨h.other_right.settings, h.other_right.store, fun other hother => ?_⟩
    have hne : other ≠ flow := fun heq => hother (heq ▸ hflow)
    rw [nextSequence_tookNumber, if_neg hne, h.other_right.sequence other hother]
  pool_left := h.pool_left
  pool_right := h.pool_right
  counts := h.counts

lemma store (h : Twins d left₀ right₀ left right) {key : SectionKey} (hkey : key.direction = d)
    {store store' : SectionStore} {bucket : List Section}
    (hleft : SectionStore.Updates left.store key bucket store)
    (hright : SectionStore.Updates right.store key bucket store') :
    Twins d left₀ right₀ { left with store } { right with store := store' } where
  own := ⟨h.own.settings, h.own.store.updates hleft hright, h.own.sequence⟩
  other_left := ⟨h.other_left.settings,
    h.other_left.store.trans (.of_updates hleft fun hne => hne hkey), h.other_left.sequence⟩
  other_right := ⟨h.other_right.settings,
    h.other_right.store.trans (.of_updates hright fun hne => hne hkey), h.other_right.sequence⟩
  pool_left := h.pool_left
  pool_right := h.pool_right
  counts := h.counts

end Twins

/-! ## Steps -/

lemma lockstep_dropPackets (packets : List Packet) :
    InLockstep (Twins d left₀ right₀) (dropPackets packets).run :=
  lockstep_modify fun _ _ h =>
    h.memory (Memory.pool_dropAll h.pool_left packets) (Memory.pool_dropAll h.pool_right packets)

lemma lockstep_encodeMessage (m : Message) :
    InLockstep (Twins d left₀ right₀) (encodeMessage m).run := by
  intro left right h
  obtain ⟨memory, hpool, hleft⟩ := Message.run_encode_of_pool h.pool_left m
    left.settings.mu left.settings.tagging
  obtain ⟨memory', hpool', hright⟩ := Message.run_encode_of_pool h.pool_right m
    right.settings.mu right.settings.tagging
  rw [run_encodeMessage, run_encodeMessage, hleft, hright]
  exact ⟨by rw [h.own.settings], h.memory hpool hpool'⟩

lemma lockstep_takeSequence {flow : Flow} (hflow : flow.direction = d) :
    InLockstep (Twins d left₀ right₀) (takeSequence flow).run := by
  intro left right h
  exact ⟨congrArg Except.ok (h.own.sequence flow hflow), h.tookNumber hflow⟩

lemma lockstep_frameMessage {flow : Flow} (hflow : flow.direction = d) (m : Message) :
    InLockstep (Twins d left₀ right₀) (frameMessage flow m).run := by
  refine lockstep_bind (lockstep_encodeMessage m) fun packet => ?_
  refine lockstep_bind (lockstep_takeSequence hflow) fun sequence => ?_
  refine lockstep_get (fun left right h => by rw [h.own.settings]) fun p => ?_
  cases addHeader p.settings flow sequence packet with
  | ok packet => exact lockstep_ok packet
  | error e => exact lockstep_bind (lockstep_dropPackets _) fun _ => lockstep_throw e

/-- A change of the store, after which both sides have the new bucket or are as they were. -/
lemma lockstep_changeStore {key : SectionKey} (hkey : key.direction = d)
    {change : SectionStore → Except Error SectionStore}
    (h : ∀ {left right : SectionStore},
      left.AgreesOn (fun key => key.direction = d) right →
        SectionStore.SameOutcome left right key (change left) (change right)) :
    InLockstep (Twins d left₀ right₀) (do
      let store ← change (← get).store
      modify fun p : Producer => { p with store } : Step Unit).run := by
  intro left right htwins
  simp only [run_bind, run_get]
  rcases h htwins.own.store with ⟨e, hl, hr⟩ | ⟨left', right', bucket, hl, hr, hul, hur⟩
  · rw [hl, hr]
    exact ⟨rfl, htwins⟩
  · rw [hl, hr]
    exact ⟨rfl, htwins.store hkey hul hur⟩

lemma lockstep_recordSection {key : SectionKey} (hkey : key.direction = d) (info : Section) :
    InLockstep (Twins d left₀ right₀) (recordSection key info).run :=
  lockstep_changeStore hkey fun h => h.add hkey info

lemma lockstep_emptyBucket {key : SectionKey} (hkey : key.direction = d) :
    InLockstep (Twins d left₀ right₀) (emptyBucket key).run :=
  lockstep_changeStore hkey fun h => h.reset

/-- Counting by a fixed number keeps counts grown alike. -/
lemma lockstep_count {change : ProducerCounts → ProducerCounts}
    (h : ∀ {left₀ right₀ left right}, GrownAlike left₀ right₀ left right →
      GrownAlike left₀ right₀ (change left) (change right)) :
    InLockstep (Twins d left₀ right₀) (count change).run :=
  lockstep_modify fun _ _ htwins =>
    ⟨⟨htwins.own.settings, htwins.own.store, htwins.own.sequence⟩,
      ⟨htwins.other_left.settings, htwins.other_left.store, htwins.other_left.sequence⟩,
      ⟨htwins.other_right.settings, htwins.other_right.store, htwins.other_right.sequence⟩,
      htwins.pool_left, htwins.pool_right, h htwins.counts⟩

variable {o : Order}

lemma lockstep_buildElement (ho : o.flow.direction = d) (index : ℕ) (e : PrbElement) :
    InLockstep (Twins d left₀ right₀) (buildElement o index e).run := by
  refine lockstep_get (fun left right h => by rw [h.own.settings]) fun p => ?_
  dsimp only
  rcases elementSymbols p.settings.frame o.flow.direction o.slot e with _ | ⟨start, symbols⟩
  · refine lockstep_bind (lockstep_count fun h => ⟨h.packets, h.sections, ?_⟩) fun _ =>
      lockstep_ok none
    have := h.skipped
    dsimp only
    omega
  · refine lockstep_bind (lockstep_lift _) fun m => ?_
    refine lockstep_bind (lockstep_frameMessage ho m) fun packet => ?_
    refine lockstep_bind (lockstep_tryCatch
      (lockstep_forM fun s _ => lockstep_recordSection ho s.info)
      fun e => lockstep_bind (lockstep_dropPackets _) fun _ => lockstep_throw e) fun _ => ?_
    refine lockstep_bind (lockstep_count fun h => ⟨?_, ?_, h.skipped⟩) fun _ =>
      lockstep_ok (some packet)
    · have := h.packets
      dsimp only
      omega
    · have := h.sections
      dsimp only
      omega

lemma lockstep_buildElements (ho : o.flow.direction = d) (index : ℕ) (elements : List PrbElement) :
    InLockstep (Twins d left₀ right₀) (buildElements o index elements).run := by
  induction elements generalizing index with
  | nil => exact lockstep_ok []
  | cons e elements ih =>
    refine lockstep_bind (lockstep_buildElement ho index e) fun packet => ?_
    refine lockstep_bind (lockstep_tryCatch (ih (index + 1))
      fun e => lockstep_bind (lockstep_dropPackets _) fun _ => lockstep_throw e) fun packets => ?_
    exact lockstep_ok _

lemma lockstep_buildRange (ho : o.flow.direction = d) (map : PrbMap) (range : ℕ × ℕ) :
    InLockstep (Twins d left₀ right₀) (buildRange o map range).run :=
  lockstep_buildElements ho _ _

end Producer

namespace Plan

variable {d : Direction} {left₀ right₀ : Producer}

lemma direction_of_mem_flows {plan : Plan} {flow : Flow} (h : flow ∈ plan.flows d) :
    flow.direction = d := by
  simp only [flows, List.mem_flatMap, List.mem_map] at h
  obtain ⟨carrier, -, antenna, -, rfl⟩ := h
  rfl

lemma lockstep_sendRange (plan : Plan) (event : SymbolEvent) (range : ℕ × ℕ) {flow : Flow}
    (hflow : flow.direction = d) :
    InLockstep (Producer.Twins d left₀ right₀) (plan.sendRange event range flow).run := by
  unfold sendRange
  by_cases hrange : range.1 < range.2
  · simp only [if_pos hrange]
    exact lockstep_bind (Producer.lockstep_buildRange hflow _ _) fun packets =>
      lockstep_bind (Producer.lockstep_dropPackets packets) fun _ => lockstep_ok _
  · simp only [if_neg hrange]
    exact lockstep_ok []

lemma lockstep_flowStep (plan : Plan) (event : SymbolEvent) (range : ℕ × ℕ) {flow : Flow}
    (hflow : flow.direction = d) :
    InLockstep (Producer.Twins d left₀ right₀) (plan.flowStep event range flow).run := by
  unfold flowStep
  by_cases hpart : event.part = 0
  · simp only [if_pos hpart]
    exact lockstep_bind (Producer.lockstep_emptyBucket hflow) fun _ =>
      plan.lockstep_sendRange event range hflow
  · simp only [if_neg hpart]
    exact plan.lockstep_sendRange event range hflow

/-- A flow that fails sends nothing, but it leaves its traces. -/
lemma buildFlow_eq (plan : Plan) (event : SymbolEvent) (range : ℕ × ℕ) (flow : Flow)
    (p : Producer) : plan.buildFlow event range flow p =
      (((plan.flowStep event range flow).run p).1.toOption.getD [],
        ((plan.flowStep event range flow).run p).2) := by
  simp only [buildFlow, bind, StateT.bind]
  rcases (plan.flowStep event range flow).run p with ⟨_ | _, q⟩ <;> rfl

lemma lockstep_buildFlow (plan : Plan) (event : SymbolEvent) (range : ℕ × ℕ) {flow : Flow}
    (hflow : flow.direction = d) :
    InLockstep (Producer.Twins d left₀ right₀) (plan.buildFlow event range flow) := by
  refine InLockstep.bind (plan.lockstep_flowStep event range hflow) fun result => ?_
  cases result with
  | ok sent => exact lockstep_pure sent
  | error e => exact lockstep_pure []

/-- What is sent for a direction, and what becomes of its numbers, its buckets and the counts, only
depends on its numbers and its buckets. -/
theorem lockstep_build (plan : Plan) (d : Direction) (event : SymbolEvent) :
    InLockstep (Producer.Twins d left₀ right₀) (plan.build d event) := by
  simp only [build]
  split_ifs
  · refine InLockstep.bind (lockstep_mapM fun flow hflow => ?_) fun sent => lockstep_pure _
    exact plan.lockstep_buildFlow event _ (direction_of_mem_flows hflow)
  · exact lockstep_pure []

end Plan

end OpenFronthaul
