import OpenFronthaul.Packet
import OpenFronthaul.Proofs.Steps
import Mathlib.Tactic

/-!
# Slots of the packet pool, and holders of shared buffers

References to shared buffers do not matter to the pool: only a slot that is taken or given back
changes it.  How many packets a pool still admits is known from its limit and from the slots that
are in use (`Memory.Admits`), and every slot that is taken is one of them
(`Memory.Takes.admits_iff`).  What some packets hold, beyond what was held before, is a slot each
and a reference to each of their buffers (`Memory.Holds`); a packet that is dropped holds nothing
any more (`Memory.Holds.drop`).
-/

namespace OpenFronthaul

/-- The shared buffer that a segment refers to. -/
def Segment.buffer? : Segment → Option SharedBuffer
  | owned _ => none
  | shared buffer => some buffer

/-- The shared buffers that a packet refers to. -/
def Packet.buffers (packet : Packet) : List SharedBuffer :=
  packet.segments.filterMap Segment.buffer?

end OpenFronthaul

namespace OpenFronthaul.Memory

variable {memory after : Memory}

/-! ## Changes without a slot -/

lemma pool_attachAll (memory : Memory) (segments : List Segment) :
    (memory.attachAll segments).pool = memory.pool := by
  induction segments generalizing memory with
  | nil => rfl
  | cons segment segments ih =>
    cases segment with
    | owned bytes => exact ih memory
    | shared buffer => exact ih (memory.attach buffer)

lemma pool_releaseAll (memory : Memory) (segments : List Segment) :
    (memory.releaseAll segments).pool = memory.pool := by
  induction segments generalizing memory with
  | nil => rfl
  | cons segment segments ih =>
    cases segment with
    | owned bytes => exact ih memory
    | shared buffer => exact ih (memory.release buffer)

lemma pool_dropAll (h : memory.pool = none) (packets : List Packet) :
    (memory.dropAll packets).pool = none := by
  induction packets generalizing memory with
  | nil => exact h
  | cons packet packets ih =>
    refine ih ?_
    rw [drop]
    cases packet.pooled with
    | false => exact (pool_releaseAll _ _).trans h
    | true =>
      simp only [freeSlot, if_true, pool_releaseAll, h]
      rfl

/-! ## Slots that are taken -/

/-- The pool has slots left for some packets; without a pool it always has. -/
def Admits (memory : Memory) (packets : ℕ) : Prop :=
  ∀ pool ∈ memory.pool, packets ≤ pool.capacity - pool.inUse

/-- One slot of the pool was taken, if there is a pool. -/
def Takes (memory after : Memory) : Prop :=
  ∃ left, memory.takeSlot = .ok left ∧ after.pool = left.pool

lemma admits_of_pool (h : memory.pool = none) (packets : ℕ) : memory.Admits packets := by
  intro pool hpool
  rw [h] at hpool
  cases hpool

lemma admits_zero (memory : Memory) : memory.Admits 0 :=
  fun _ _ => Nat.zero_le _

/-- A slot that is taken is one of those that were left. -/
lemma Takes.admits_iff (h : memory.Takes after) (packets : ℕ) :
    memory.Admits (1 + packets) ↔ after.Admits packets := by
  obtain ⟨left, htake, hpool⟩ := h
  rw [Admits, Admits, hpool]
  rcases hmemory : memory.pool with _ | pool
  · rw [takeSlot, hmemory] at htake
    obtain rfl := Except.ok.inj htake
    rw [hmemory]
    exact ⟨fun _ => nofun, fun _ => nofun⟩
  · rw [takeSlot, hmemory] at htake
    simp only [bind_eq_ok, pure_eq_ok, Pool.alloc] at htake
    obtain ⟨taken, htaken, rfl⟩ := htake
    split_ifs at htaken with hfree
    obtain rfl := pure_eq_ok.mp htaken
    simp only [Option.mem_some_iff, forall_eq']
    omega

/-- Taking a slot fails when none is left. -/
lemma takeSlot_eq_error {e : LinkError} (h : memory.takeSlot = .error e) :
    e.controlKind = .resource ∧ ¬memory.Admits 1 := by
  rcases hmemory : memory.pool with _ | pool
  · rw [takeSlot, hmemory] at h
    cases h
  · rw [takeSlot, hmemory] at h
    dsimp only [Pool.alloc] at h
    split_ifs at h with hfree
    · cases h
    · obtain rfl : LinkError.poolExhausted pool.inUse = e := Except.error.inj h
      refine ⟨rfl, fun hadmits => ?_⟩
      have hslots := hadmits pool hmemory
      omega

/-! ## What packets hold -/

/-- Slots of the pool in use, if packets are counted. -/
def inUse (memory : Memory) : Option ℕ :=
  memory.pool.map Pool.inUse

/-- How many of some references are to a buffer. -/
def referencesTo (buffer : SharedBuffer) (references : List SharedBuffer) : ℕ :=
  references.countP fun other => other.account = buffer.account

/-- Beyond what was held before, some packets hold a slot each and a reference to each of their
buffers, and nothing else is held. -/
structure Holds (memory after : Memory) (packets : List Packet) : Prop where
  /-- There is one more slot in use for each packet. -/
  inUse : after.inUse = memory.inUse.map (· + packets.length)
  /-- Each packet knows whether it has a slot to give back. -/
  pooled : ∀ packet ∈ packets, packet.pooled = memory.pool.isSome
  /-- A buffer has one more holder for each reference to it. -/
  holders : ∀ buffer, after.holders buffer =
    memory.holders buffer + referencesTo buffer (packets.flatMap Packet.buffers)

/-- As many slots are in use as before, and every buffer has as many holders. -/
structure SameHoldings (memory after : Memory) : Prop where
  inUse : after.inUse = memory.inUse
  holders : ∀ buffer, after.holders buffer = memory.holders buffer

/-! ### References -/

lemma referencesTo_cons (buffer other : SharedBuffer) (references : List SharedBuffer) :
    referencesTo buffer (other :: references) =
      referencesTo buffer references + if other.account = buffer.account then 1 else 0 := by
  simp only [referencesTo, List.countP_cons, decide_eq_true_eq]

lemma referencesTo_append (buffer : SharedBuffer) (references more : List SharedBuffer) :
    referencesTo buffer (references ++ more) =
      referencesTo buffer references + referencesTo buffer more :=
  List.countP_append

lemma holders_update (memory : Memory) (number : ℕ) (change : Account → Account)
    (buffer : SharedBuffer) : (memory.update number change).holders buffer =
      if number = buffer.account then (change (memory.account buffer.account)).holders
      else memory.holders buffer := by
  simp only [holders, account, update, Std.HashMap.getD_insert, beq_iff_eq]
  split_ifs with hnumber
  · rw [hnumber]
  · rfl

lemma holders_attach (memory : Memory) (other buffer : SharedBuffer) :
    (memory.attach other).holders buffer =
      memory.holders buffer + if other.account = buffer.account then 1 else 0 := by
  rw [attach, holders_update]
  split_ifs
  · rfl
  · rfl

/-- One holder less, whether or not a callback runs for the last one. -/
lemma holders_release (memory : Memory) (other buffer : SharedBuffer) :
    (memory.release other).holders buffer =
      memory.holders buffer - if other.account = buffer.account then 1 else 0 := by
  rw [release, holders_update]
  split_ifs
  · rw [Account.release]
    split_ifs with hlast
    · rw [holders, hlast.1]
    · rfl
  · rfl

lemma holders_attachAll (memory : Memory) (segments : List Segment) (buffer : SharedBuffer) :
    (memory.attachAll segments).holders buffer =
      memory.holders buffer + referencesTo buffer (segments.filterMap Segment.buffer?) := by
  induction segments generalizing memory with
  | nil => rfl
  | cons segment segments ih =>
    cases segment with
    | owned bytes => exact ih memory
    | shared other =>
      calc ((memory.attach other).attachAll segments).holders buffer
        _ = memory.holders buffer + (referencesTo buffer (segments.filterMap Segment.buffer?)
              + if other.account = buffer.account then 1 else 0) := by
          rw [ih, holders_attach]
          omega
        _ = memory.holders buffer +
              referencesTo buffer (other :: segments.filterMap Segment.buffer?) := by
          rw [referencesTo_cons]

lemma holders_releaseAll (memory : Memory) (segments : List Segment) (buffer : SharedBuffer) :
    (memory.releaseAll segments).holders buffer =
      memory.holders buffer - referencesTo buffer (segments.filterMap Segment.buffer?) := by
  induction segments generalizing memory with
  | nil => rfl
  | cons segment segments ih =>
    cases segment with
    | owned bytes => exact ih memory
    | shared other =>
      calc ((memory.release other).releaseAll segments).holders buffer
        _ = memory.holders buffer - (referencesTo buffer (segments.filterMap Segment.buffer?)
              + if other.account = buffer.account then 1 else 0) := by
          rw [ih, holders_release]
          omega
        _ = memory.holders buffer -
              referencesTo buffer (other :: segments.filterMap Segment.buffer?) := by
          rw [referencesTo_cons]

/-! ### Slots -/

lemma inUse_attachAll (memory : Memory) (segments : List Segment) :
    (memory.attachAll segments).inUse = memory.inUse := by
  rw [inUse, pool_attachAll, inUse]

lemma isSome_inUse (memory : Memory) : memory.inUse.isSome = memory.pool.isSome :=
  Option.isSome_map

/-- A slot is taken from a pool that stays, and no buffer is touched. -/
lemma takeSlot_eq_ok {left : Memory} (h : memory.takeSlot = .ok left) :
    left.inUse = memory.inUse.map (· + 1) ∧ left.pool.isSome = memory.pool.isSome ∧
      ∀ buffer, left.holders buffer = memory.holders buffer := by
  rcases hmemory : memory.pool with _ | pool
  · rw [takeSlot, hmemory] at h
    obtain rfl := Except.ok.inj h
    rw [inUse, hmemory]
    exact ⟨rfl, rfl, fun _ => rfl⟩
  · rw [takeSlot, hmemory] at h
    simp only [bind_eq_ok, pure_eq_ok, Pool.alloc] at h
    obtain ⟨taken, htaken, rfl⟩ := h
    split_ifs at htaken
    obtain rfl := pure_eq_ok.mp htaken
    rw [inUse, inUse, hmemory]
    exact ⟨rfl, rfl, fun _ => rfl⟩

lemma inUse_freeSlot (memory : Memory) : memory.freeSlot.inUse = memory.inUse.map (· - 1) := by
  rw [inUse, inUse, freeSlot, Option.map_map, Option.map_map]
  rfl

lemma inUse_drop (memory : Memory) (packet : Packet) : (memory.drop packet).inUse =
    if packet.pooled then memory.inUse.map (· - 1) else memory.inUse := by
  have hpool : (memory.releaseAll packet.segments).inUse = memory.inUse := by
    rw [inUse, pool_releaseAll, inUse]
  rw [drop]
  split_ifs
  · rw [inUse_freeSlot, hpool]
  · exact hpool

lemma holders_drop (memory : Memory) (packet : Packet) (buffer : SharedBuffer) :
    (memory.drop packet).holders buffer =
      memory.holders buffer - referencesTo buffer packet.buffers := by
  have hfree (freed : Memory) : freed.freeSlot.holders buffer = freed.holders buffer := rfl
  rw [drop]
  split_ifs
  · rw [hfree, holders_releaseAll, Packet.buffers]
  · rw [holders_releaseAll, Packet.buffers]

/-! ### Packets -/

namespace Holds

variable {next : Memory} {packets more : List Packet} {packet : Packet}

lemma refl (memory : Memory) : memory.Holds memory [] where
  inUse := Option.map_id'.symm
  pooled := nofun
  holders _ := rfl

lemma pool_isSome (h : memory.Holds after packets) : after.pool.isSome = memory.pool.isSome := by
  rw [← isSome_inUse, h.inUse, Option.isSome_map, isSome_inUse]

lemma trans (h : memory.Holds next packets) (h' : next.Holds after more) :
    memory.Holds after (packets ++ more) where
  inUse := by
    rw [h'.inUse, h.inUse, Option.map_map, List.length_append]
    simp only [Function.comp_def, Nat.add_assoc]
  pooled := by
    refine List.forall_mem_append.mpr ⟨h.pooled, fun packet hpacket => ?_⟩
    rw [h'.pooled packet hpacket, h.pool_isSome]
  holders buffer := by
    rw [h'.holders, h.holders, List.flatMap_append, referencesTo_append, Nat.add_assoc]

/-- A packet that is dropped gives its slot and its references back. -/
lemma drop (h : memory.Holds after (packet :: packets)) :
    memory.Holds (after.drop packet) packets where
  inUse := by
    rw [inUse_drop, h.pooled packet List.mem_cons_self, h.inUse, ← isSome_inUse]
    cases memory.inUse with
    | none => rfl
    | some n => rfl
  pooled := fun other hother => h.pooled other (List.mem_cons_of_mem packet hother)
  holders buffer := by
    rw [holders_drop, h.holders, List.flatMap_cons, referencesTo_append]
    omega

lemma dropAll (h : memory.Holds after (packets ++ more)) :
    memory.Holds (after.dropAll packets) more := by
  induction packets generalizing after with
  | nil => exact h
  | cons packet packets ih => exact ih h.drop

/-- Without a packet nothing more is held. -/
lemma same (h : memory.Holds after []) : memory.SameHoldings after where
  inUse := h.inUse.trans Option.map_id'
  holders := h.holders

/-- A slot that is taken is that of a packet without segments. -/
lemma takeSlot {left : Memory} (h : memory.takeSlot = .ok left) :
    memory.Holds left [⟨[], left.pool.isSome⟩] := by
  obtain ⟨hinUse, hpool, hholders⟩ := takeSlot_eq_ok h
  exact ⟨hinUse, List.forall_mem_singleton.mpr hpool, hholders⟩

/-- A packet holds what is booked for its segments. -/
lemma attachAll {pooled : Bool} (h : memory.Holds after [⟨[], pooled⟩]) (segments : List Segment) :
    memory.Holds (after.attachAll segments) [⟨segments, pooled⟩] where
  inUse := by rw [inUse_attachAll, h.inUse, List.length_singleton, List.length_singleton]
  pooled := List.forall_mem_singleton.mpr (h.pooled ⟨[], pooled⟩ List.mem_cons_self)
  holders buffer := by
    rw [holders_attachAll, h.holders, List.flatMap_singleton, List.flatMap_singleton]
    rfl

/-- A packet holds the same whatever bytes are put in front of it. -/
lemma prepend (h : memory.Holds after [packet]) (bytes : Bytes) :
    memory.Holds after [packet.prepend bytes] where
  inUse := h.inUse
  pooled := List.forall_mem_singleton.mpr (h.pooled packet List.mem_cons_self)
  holders := h.holders

end Holds

end OpenFronthaul.Memory
