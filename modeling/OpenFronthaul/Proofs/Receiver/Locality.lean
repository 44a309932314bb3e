import OpenFronthaul.Emulation.RadioUnit
import OpenFronthaul.Proofs.Lockstep
import OpenFronthaul.Proofs.Receiver.Rotation
import OpenFronthaul.Proofs.Store.Agreement

/-!
# The part of a radio unit that a direction uses

A packet names its direction in its first bit, and a radio unit that takes it in looks at the buckets
of this direction and at nothing else of its state, and leaves those of the other direction alone.
So two radio units that agree in this part count the same for the packet and agree again
(`twins_receive`), whatever came in for the other direction in between, and whether the packet is
malformed or not.
-/

namespace OpenFronthaul

/-! ## The direction of a packet -/

/-- The direction of a packet. -/
def packetDirection (packet : Bytes) : Direction :=
  messageDirection (packet.drop Ecpri.headerLength)

/-- The packet of an element names the direction of its flow. -/
lemma packetDirection_of_isElementPacket {settings : ProducerSettings} {o : Producer.Order}
    {e : PrbElement} {index : ℕ} {packet : Packet}
    (h : Producer.IsElementPacket settings o e index packet) :
    packetDirection packet.wire = o.flow.direction := by
  have htarget := (Receiver.target?_of_isElementPacket
    (c := { mu := settings.mu, carrier := 0, antenna := 0 }) rfl h).1
  rw [Receiver.target?] at htarget
  rcases haccept : Receiver.acceptHeader packet.message with e | parsed
  · rw [haccept] at htarget
    cases htarget
  · rw [haccept] at htarget
    have hdirection := congrArg (Option.map SectionKey.direction) htarget
    rw [packetDirection, ← Packet.message, ← Receiver.direction_of_acceptHeader haccept]
    exact Option.some.inj hdirection

/-! ## Twins -/

namespace Receiver

/-- Counts that have grown alike since two earlier ones. -/
structure GrownAlike (left₀ right₀ left right : ReceiveCounts) : Prop where
  packets : left.packets + right₀.packets = right.packets + left₀.packets
  sections : left.sections + right₀.sections = right.sections + left₀.sections
  failures : left.failures + right₀.failures = right.failures + left₀.failures
  lengthMismatches :
    left.lengthMismatches + right₀.lengthMismatches = right.lengthMismatches + left₀.lengthMismatches
  technologyMismatches : left.technologyMismatches + right₀.technologyMismatches =
    right.technologyMismatches + left₀.technologyMismatches
  soundings : left.soundings + right₀.soundings = right.soundings + left₀.soundings

namespace GrownAlike

variable {left₀ right₀ left right left' right' : ReceiveCounts}

/-- What one pair has in common the other pair has in common as well. -/
lemma swap (h : GrownAlike left₀ right₀ left right) : GrownAlike right right₀ left left₀ :=
  ⟨h.packets.trans (Nat.add_comm _ _), h.sections.trans (Nat.add_comm _ _),
    h.failures.trans (Nat.add_comm _ _), h.lengthMismatches.trans (Nat.add_comm _ _),
    h.technologyMismatches.trans (Nat.add_comm _ _), h.soundings.trans (Nat.add_comm _ _)⟩

lemma trans (h : GrownAlike left₀ right₀ left right) (h' : GrownAlike left right left' right') :
    GrownAlike left₀ right₀ left' right' := by
  obtain ⟨h₁, h₂, h₃, h₄, h₅, h₆⟩ := h
  obtain ⟨h₁', h₂', h₃', h₄', h₅', h₆'⟩ := h'
  constructor <;> omega

/-- Counts that grew like the same ones are the same. -/
lemma eq (h : GrownAlike left₀ right₀ left right) (h' : GrownAlike left₀ right₀ left' right) :
    left = left' := by
  obtain ⟨h₁, h₂, h₃, h₄, h₅, h₆⟩ := h
  obtain ⟨h₁', h₂', h₃', h₄', h₅', h₆'⟩ := h'
  cases left
  cases left'
  simp only [ReceiveCounts.mk.injEq] at *
  omega

end GrownAlike

/-- A change of the counts that adds the same on both sides. -/
def Adds (change : ReceiveCounts → ReceiveCounts) : Prop :=
  ∀ {left₀ right₀ left right}, GrownAlike left₀ right₀ left right →
    GrownAlike left₀ right₀ (change left) (change right)

lemma adds_inspect (c : FlowContext) (slot : ℕ) (d : Extension.Decoded) :
    Adds (inspect c slot d) := by
  intro left₀ right₀ left right h
  have hmismatch : GrownAlike left₀ right₀
      (if d.mismatch then { left with lengthMismatches := left.lengthMismatches + 1 } else left)
      (if d.mismatch then { right with lengthMismatches := right.lengthMismatches + 1 }
        else right) := by
    split_ifs
    · refine { h with lengthMismatches := ?_ }
      have := h.lengthMismatches
      dsimp only
      omega
    · exact h
  unfold inspect
  generalize (if d.mismatch then { left with lengthMismatches := left.lengthMismatches + 1 }
    else left) = left' at hmismatch ⊢
  generalize (if d.mismatch then { right with lengthMismatches := right.lengthMismatches + 1 }
    else right) = right' at hmismatch ⊢
  split
  · dsimp only
    split_ifs
    · refine { hmismatch with technologyMismatches := ?_ }
      have := hmismatch.technologyMismatches
      dsimp only
      omega
    · exact hmismatch
  · exact hmismatch

end Receiver

namespace RadioUnit

/-- Radio units of one shape that hold the same sections of some directions. -/
def AgreesOn (directions : Direction → Prop) (left right : RadioUnit) : Prop :=
  left.store.AgreesOn (fun key => directions key.direction) right.store

/-- Two radio units at the same point of work for a direction that they began in two states: they
agree on the direction, and each is as it was for the other one. -/
structure Twins (d : Direction) (left₀ right₀ left right : RadioUnit) : Prop where
  own : AgreesOn (· = d) left right
  other_left : AgreesOn (· ≠ d) left₀ left
  other_right : AgreesOn (· ≠ d) right₀ right
  counts : Receiver.GrownAlike left₀.counts right₀.counts left.counts right.counts

variable {d : Direction} {left₀ right₀ left right : RadioUnit}

lemma Twins.begin (h : AgreesOn (· = d) left right) : Twins d left right left right where
  own := h
  other_left := .refl _ _
  other_right := .refl _ _
  counts := ⟨Nat.add_comm _ _, Nat.add_comm _ _, Nat.add_comm _ _, Nat.add_comm _ _,
    Nat.add_comm _ _, Nat.add_comm _ _⟩

lemma Twins.count (h : Twins d left₀ right₀ left right)
    {change : ReceiveCounts → ReceiveCounts} (hchange : Receiver.Adds change) :
    Twins d left₀ right₀ { left with counts := change left.counts }
      { right with counts := change right.counts } :=
  ⟨h.own, h.other_left, h.other_right, hchange h.counts⟩

lemma Twins.store (h : Twins d left₀ right₀ left right) {key : SectionKey}
    (hkey : key.direction = d) {store store' : SectionStore} {bucket : List Section}
    (hleft : SectionStore.Updates left.store key bucket store)
    (hright : SectionStore.Updates right.store key bucket store') :
    Twins d left₀ right₀ { left with store } { right with store := store' } :=
  ⟨h.own.updates hleft hright, h.other_left.trans (.of_updates hleft fun hne => hne hkey),
    h.other_right.trans (.of_updates hright fun hne => hne hkey), h.counts⟩

/-- The state of the receiver of a radio unit. -/
def receiver (unit : RadioUnit) : Receiver :=
  { counts := unit.counts, store := some unit.store }

end RadioUnit

namespace Receiver

open RadioUnit (receiver)

/-- The receivers of two radio units that are twins. -/
def Twins (d : Direction) (left₀ right₀ : RadioUnit) (left right : Receiver) : Prop :=
  ∃ unit unit' : RadioUnit, left = unit.receiver ∧ right = unit'.receiver ∧
    RadioUnit.Twins d left₀ right₀ unit unit'

variable {d : Direction} {left₀ right₀ : RadioUnit} {c : FlowContext} {key : SectionKey}

lemma lockstep_count {change : ReceiveCounts → ReceiveCounts} (h : Adds change) :
    InLockstep (Twins d left₀ right₀) (count change).run := by
  refine lockstep_modify ?_
  rintro _ _ ⟨left, right, rfl, rfl, htwins⟩
  exact ⟨_, _, rfl, rfl, htwins.count h⟩

/-- What is left over is dropped on both sides or on none. -/
lemma resetStale_alike {left right : SectionStore}
    (h : left.AgreesOn (fun key => key.direction = d) right) (hkey : key.direction = d) :
    SectionStore.SameOutcome left right key (resetStale c key left) (resetStale c key right) := by
  have hentries := h.entries_eq key hkey
  have hstay : SectionStore.SameOutcome left right key (pure left) (pure right) := by
    refine .inr ⟨left, right, left.entries key, rfl, rfl, .refl left key, ?_⟩
    rw [hentries]
    exact .refl right key
  unfold resetStale
  cases c.map with
  | none => exact hstay
  | some map =>
    simp only [SectionStore.size_eq_length, hentries]
    split_ifs
    · exact h.reset
    · exact hstay

lemma lockstep_record (hkey : key.direction = d) (index : ℕ) (info : Section) :
    InLockstep (Twins d left₀ right₀) (record c key index info).run := by
  rintro _ _ ⟨left, right, rfl, rfl, htwins⟩
  have hbefore : SectionStore.SameOutcome left.store right.store key
      (if index = 0 then resetStale c key left.store else pure left.store)
      (if index = 0 then resetStale c key right.store else pure right.store) := by
    have hentries := htwins.own.entries_eq key hkey
    split_ifs
    · exact resetStale_alike htwins.own hkey
    · refine .inr ⟨_, _, left.store.entries key, rfl, rfl, .refl _ key, ?_⟩
      rw [hentries]
      exact .refl _ key
  have hleft : left.receiver.store = some left.store := rfl
  have hright : right.receiver.store = some right.store := rfl
  rw [run_record_some hleft, run_record_some hright]
  rcases hbefore with ⟨e, hl, hr⟩ | ⟨before, before', bucket, hl, hr, hul, hur⟩
  · rw [hl, hr]
    exact ⟨rfl, left, right, rfl, rfl, htwins⟩
  · have htwins' := htwins.store hkey hul hur
    rw [hl, hr]
    dsimp only
    rcases htwins'.own.add hkey info with ⟨e, hl, hr⟩ | ⟨after, after', bucket', hl, hr, hul, hur⟩
    · rw [hl, hr]
      exact ⟨rfl, { left with store := before }, { right with store := before' }, rfl, rfl, htwins'⟩
    · rw [hl, hr]
      exact ⟨rfl, { left with store := after }, { right with store := after' }, rfl, rfl,
        htwins'.store hkey hul hur⟩

lemma lockstep_decodeChain (slot room : ℕ) (data : Bytes) :
    InLockstep (Twins d left₀ right₀) (decodeChain c slot room data).run := by
  induction room generalizing data with
  | zero => exact lockstep_throw _
  | succ room ih =>
    refine lockstep_bind (lockstep_lift _) fun decoded => ?_
    refine lockstep_bind (lockstep_count (adds_inspect c slot decoded)) fun _ => ?_
    dsimp only
    split_ifs
    · exact lockstep_bind (ih _) fun _ => lockstep_ok _
    · exact lockstep_ok _

lemma lockstep_readExtensions (slot : ℕ) (extended : Bool) (data : Bytes) :
    InLockstep (Twins d left₀ right₀) (readExtensions c slot extended data).run := by
  unfold readExtensions
  split_ifs
  · exact lockstep_ok _
  · exact lockstep_bind (lockstep_lift _) fun _ => lockstep_ok _
  · exact lockstep_decodeChain _ _ _

lemma lockstep_readBody (parsed : MessageHeader.Parsed) (slot index : ℕ) (data : Bytes) :
    InLockstep (Twins d left₀ right₀) (readBody c parsed slot index data).run := by
  refine lockstep_bind (lockstep_lift _) fun wire => ?_
  refine lockstep_bind (lockstep_lift _) fun info => ?_
  have hextensions : InLockstep (Twins d left₀ right₀) (readExtensions c slot wire.extended
      (data.drop parsed.type.sectionLength)).run := lockstep_readExtensions _ _ _
  have hrest := lockstep_bind hextensions
    fun read => lockstep_ok ((⟨info, read.1⟩, read.2) : ExtendedSection × Bytes)
  by_cases hsounding : c.isSounding
  · simp only [if_pos hsounding]
    refine lockstep_bind (lockstep_count fun h => { h with soundings := ?_ }) fun _ => hrest
    have := h.soundings
    dsimp only
    omega
  · simp only [if_neg hsounding]
    exact hrest

lemma lockstep_readSections (parsed : MessageHeader.Parsed) (hkey : key.direction = d)
    (slot count index : ℕ) (data : Bytes) :
    InLockstep (Twins d left₀ right₀) (readSections c parsed key slot count index data).run := by
  induction count generalizing index data with
  | zero => exact lockstep_ok []
  | succ count ih =>
    refine lockstep_bind ?_ fun read => lockstep_bind (ih _ _) fun _ => lockstep_ok _
    refine lockstep_bind (lockstep_readBody parsed slot index data) fun read => ?_
    refine lockstep_bind (lockstep_record hkey index read.1.info) fun _ => ?_
    refine lockstep_bind (lockstep_count fun h => { h with sections := ?_ }) fun _ => lockstep_ok _
    have := h.sections
    dsimp only
    omega

lemma lockstep_readMessage {data : Bytes} (h : messageDirection data = d) :
    InLockstep (Twins d left₀ right₀) (readMessage c data).run := by
  rcases haccept : acceptHeader data with e | parsed
  · unfold readMessage
    rw [haccept]
    exact lockstep_throw e
  · have hkey : (bucketKey c parsed).direction = d := (direction_of_acceptHeader haccept).trans h
    have hread : readMessage c data = (do
        let sections ← readSections c parsed (bucketKey c parsed)
          (c.mu.slotIndex parsed.header.slotTime) parsed.sections 0
          (data.drop parsed.type.headerLength)
        return ⟨parsed.direction, parsed.type, parsed.header, sections⟩) := by
      unfold readMessage
      rw [haccept]
      rfl
    rw [hread]
    exact lockstep_bind (lockstep_readSections parsed hkey _ _ _ _) fun _ => lockstep_ok _

lemma lockstep_receive {data : Bytes} (h : messageDirection data = d) :
    InLockstep (Twins d left₀ right₀) (receive c data).run := by
  refine lockstep_bind (lockstep_count fun h => { h with packets := ?_ }) fun _ => ?_
  · have := h.packets
    dsimp only
    omega
  · refine lockstep_tryCatch (lockstep_readMessage h) fun e => ?_
    refine lockstep_bind (lockstep_count fun h => { h with failures := ?_ }) fun _ =>
      lockstep_throw e
    have := h.failures
    dsimp only
    omega

end Receiver

namespace RadioUnit

variable {d : Direction} {left₀ right₀ left right : RadioUnit}

/-- A radio unit takes in a packet as its receiver does. -/
lemma receive_eq {plan : Plan} {packet : Bytes} {header : Ecpri.Header} {id : EaxcId}
    (hparse : plan.framer.parse packet = .ok (header, id)) {unit unit' : RadioUnit}
    (h : ((Receiver.receive (context plan id (packet.drop Ecpri.headerLength))
      (packet.drop Ecpri.headerLength)).run unit.receiver).2 = unit'.receiver) :
    unit.receive plan packet = unit' := by
  have hreceiver : ({ counts := unit.counts, store := some unit.store } : Receiver) =
    unit.receiver := rfl
  simp only [receive, hparse, Receiver.decode, hreceiver]
  rcases hrun : (Receiver.receive (context plan id (packet.drop Ecpri.headerLength))
    (packet.drop Ecpri.headerLength)).run unit.receiver with ⟨result, after⟩
  rw [hrun] at h
  subst h
  rfl

/-- What a radio unit counts for a packet and what becomes of its buckets only depends on the
buckets of the direction that the packet names. -/
theorem twins_receive (plan : Plan) {packet : Bytes} (hpacket : packetDirection packet = d)
    (h : Twins d left₀ right₀ left right) :
    Twins d left₀ right₀ (left.receive plan packet) (right.receive plan packet) := by
  rcases hparse : plan.framer.parse packet with e | ⟨header, id⟩
  · simp only [receive, hparse]
    exact h
  · obtain ⟨-, left', right', hleft, hright, htwins⟩ := Receiver.lockstep_receive
      (c := context plan id (packet.drop Ecpri.headerLength)) hpacket
      (⟨left, right, rfl, rfl, h⟩ : Receiver.Twins d left₀ right₀ left.receiver right.receiver)
    rw [receive_eq hparse hleft, receive_eq hparse hright]
    exact htwins

end RadioUnit

end OpenFronthaul
