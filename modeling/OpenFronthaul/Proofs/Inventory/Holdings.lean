import OpenFronthaul.Inventory
import OpenFronthaul.Proofs.Memory

/-!
# What the accounts of a memory keep

A memory is right about some references and some slots of its pool when every buffer has as many
holders as there are references to it, and the pool counts just those slots (`Memory.Keeps`).  Every
change of the memory is one of what it keeps.
-/

namespace OpenFronthaul

/-! ## Objects under names -/

namespace Named

variable {α : Type} {objects : Named α}

/-- The objects without their names. -/
def values (objects : Named α) : List α :=
  objects.map Prod.snd

/-- No name is given twice. -/
def Distinct (objects : Named α) : Prop :=
  (objects.map Prod.fst).Nodup

lemma values_put (objects : Named α) (name : String) (object : α) :
    (objects.put name object).values = object :: (Named.erase objects name).values := rfl

lemma erase_of_not_mem {name : String} (h : name ∉ objects.map Prod.fst) :
    Named.erase objects name = objects := by
  refine List.filter_eq_self.mpr fun entry hentry => decide_eq_true ?_
  rintro rfl
  exact h (List.mem_map_of_mem hentry)

lemma Distinct.erase (h : objects.Distinct) (name : String) : (Named.erase objects name).Distinct :=
  h.sublist (List.filter_sublist.map Prod.fst)

lemma Distinct.put (h : objects.Distinct) (name : String) (object : α) :
    (objects.put name object).Distinct := by
  refine List.nodup_cons.mpr ⟨fun hmem => ?_, h.erase name⟩
  obtain ⟨entry, hentry, rfl⟩ := List.mem_map.mp hmem
  exact of_decide_eq_true (List.mem_filter.mp hentry).2 rfl

/-- What a name stands for is the one object that is gone when the name is. -/
lemma Distinct.perm_erase (h : objects.Distinct) (name : String) :
    objects.values.Perm ((objects.find? name).toList ++ (Named.erase objects name).values) := by
  induction objects with
  | nil => exact .refl _
  | cons entry objects ih =>
    obtain ⟨other, object⟩ := entry
    obtain ⟨hfresh, hrest⟩ := List.nodup_cons.mp h
    by_cases hname : other = name
    · subst hname
      have hfind : Named.find? ((other, object) :: objects) other = some object := by
        rw [find?, List.lookup_cons, beq_self_eq_true]
      have herase : Named.erase ((other, object) :: objects) other = objects :=
        (List.filter_cons_of_neg (by simp)).trans (erase_of_not_mem hfresh)
      rw [hfind, herase]
      exact .refl _
    · have hfind : Named.find? ((other, object) :: objects) name = Named.find? objects name := by
        have hbeq : (name == other) = false := beq_eq_false_iff_ne.mpr (Ne.symm hname)
        rw [find?, List.lookup_cons, hbeq]
        rfl
      have herase : Named.erase ((other, object) :: objects) name =
          (other, object) :: Named.erase objects name := List.filter_cons_of_pos (by simp [hname])
      rw [hfind, herase]
      exact ((ih hrest).cons object).trans List.perm_middle.symm

/-- The object of a name is one of the objects. -/
lemma mem_values_of_find? {name : String} {object : α} (h : objects.find? name = some object) :
    object ∈ objects.values := by
  obtain ⟨before, after, rfl, -⟩ := List.lookup_eq_some_iff.mp h
  simp [values]

lemma mem_values_of_mem_erase {name : String} {object : α}
    (h : object ∈ (Named.erase objects name).values) : object ∈ objects.values := by
  obtain ⟨entry, hentry, rfl⟩ := List.mem_map.mp h
  exact List.mem_map_of_mem (List.mem_of_mem_filter hentry)

end Named

/-! ## The pool -/

/-- The counts of a pool with the given number of slots in use. -/
structure Pool.Counts (pool : Pool) (slots : ℕ) : Prop where
  inUse_eq : pool.inUse = slots
  /-- A slot that was taken is in use or was given back. -/
  allocs_eq : pool.allocs = slots + pool.frees
  slots_le : slots ≤ pool.capacity

lemma Pool.Counts.free {pool : Pool} {slots : ℕ} (h : pool.Counts (slots + 1)) :
    pool.free.Counts slots where
  inUse_eq := by
    rw [Pool.free, h.inUse_eq]
    rfl
  allocs_eq := by
    calc pool.allocs
      _ = slots + 1 + pool.frees := h.allocs_eq
      _ = slots + (pool.frees + 1) := by omega
  slots_le := (Nat.le_succ slots).trans h.slots_le

/-- A slot is refused exactly when all are in use. -/
lemma Pool.Counts.alloc_eq {pool : Pool} {slots : ℕ} (h : pool.Counts slots) :
    slots = pool.capacity ∧ pool.alloc = .error (.poolExhausted slots) ∨
      slots < pool.capacity ∧ ∃ after, pool.alloc = .ok after ∧ after.capacity = pool.capacity ∧
        after.Counts (slots + 1) := by
  obtain ⟨rfl, hallocs, hle⟩ := h
  rw [Pool.alloc]
  rcases hle.eq_or_lt with heq | hlt
  · rw [if_neg (by omega)]
    exact .inl ⟨heq, rfl⟩
  · rw [if_pos hlt]
    refine .inr ⟨hlt, _, rfl, rfl, ⟨rfl, ?_, hlt⟩⟩
    dsimp only
    omega

/-! ## What is held -/

namespace Memory

variable {memory : Memory} {references : List SharedBuffer} {slots : ℕ} {buffer : SharedBuffer}

/-- The accounts say what is held: some references to shared buffers, and some slots of the pool. -/
structure Keeps (memory : Memory) (references : List SharedBuffer) (slots : ℕ) : Prop where
  holders : ∀ buffer, memory.holders buffer = referencesTo buffer references
  slots : ∀ pool ∈ memory.pool, pool.Counts slots
  /-- An account is blank until it is opened. -/
  blank : ∀ number, memory.next ≤ number → memory.account number = {}

lemma account_update (memory : Memory) (number : ℕ) (change : Account → Account) (other : ℕ) :
    (memory.update number change).account other =
      if number = other then change (memory.account other) else memory.account other := by
  simp only [account, update, Std.HashMap.getD_insert, beq_iff_eq]
  split_ifs with hnumber
  · rw [hnumber]
  · rfl

lemma account_share (memory : Memory) (bytes : Bytes) (callback : Bool) (number : ℕ) :
    (memory.share bytes callback).2.account number =
      if memory.next = number then { armed := callback } else memory.account number := by
  simp only [account, share, Std.HashMap.getD_insert, beq_iff_eq]

lemma account_share_self (memory : Memory) (bytes : Bytes) (callback : Bool) :
    (memory.share bytes callback).2.account memory.next = { armed := callback } := by
  rw [account_share, if_pos rfl]

namespace Keeps

/-- A buffer that is referred to has an account. -/
lemma opened (h : memory.Keeps references slots) (hmem : buffer ∈ references) :
    buffer.account < memory.next := by
  by_contra hnext
  have hnone : memory.holders buffer = 0 := by
    rw [Memory.holders, h.blank buffer.account (not_lt.mp hnext)]
  have hsome : 0 < referencesTo buffer references :=
    List.countP_pos_iff.mpr ⟨buffer, hmem, decide_eq_true rfl⟩
  rw [← h.holders, hnone] at hsome
  exact hsome.false

lemma perm {more : List SharedBuffer} (h : memory.Keeps references slots)
    (hperm : references.Perm more) : memory.Keeps more slots where
  holders buffer := (h.holders buffer).trans (hperm.countP_eq _)
  slots := h.slots
  blank := h.blank

/-- A new account has no holder. -/
lemma share (h : memory.Keeps references slots) (bytes : Bytes) (callback : Bool) :
    (memory.share bytes callback).2.Keeps references slots where
  holders buffer := by
    rw [← h.holders, Memory.holders, account_share]
    split_ifs with hnext
    · rw [Memory.holders, h.blank buffer.account hnext.le]
    · rfl
  slots := h.slots
  blank number hnumber := by
    rw [account_share, if_neg (Nat.ne_of_lt hnumber)]
    exact h.blank number (Nat.le_of_succ_le hnumber)

/-- A change to an account that is open leaves the others blank. -/
lemma blank_update (h : memory.Keeps references slots) {number : ℕ} (hopen : number < memory.next)
    (change : Account → Account) (other : ℕ) (hother : memory.next ≤ other) :
    (memory.update number change).account other = {} := by
  rw [account_update, if_neg (hopen.trans_le hother).ne]
  exact h.blank other hother

lemma attach (h : memory.Keeps references slots) (hopen : buffer.account < memory.next) :
    (memory.attach buffer).Keeps (buffer :: references) slots where
  holders other := by rw [holders_attach, h.holders, referencesTo_cons]
  slots := h.slots
  blank := h.blank_update hopen _

lemma release (h : memory.Keeps (buffer :: references) slots) :
    (memory.release buffer).Keeps references slots where
  holders other := by rw [holders_release, h.holders, referencesTo_cons, Nat.add_sub_cancel]
  slots := h.slots
  blank := h.blank_update (h.opened List.mem_cons_self) _

lemma releaseAll {segments : List Segment}
    (h : memory.Keeps (segments.filterMap Segment.buffer? ++ references) slots) :
    (memory.releaseAll segments).Keeps references slots := by
  induction segments generalizing memory with
  | nil => exact h
  | cons segment segments ih =>
    cases segment with
    | owned bytes => exact ih h
    | shared buffer => exact ih (Keeps.release h)

lemma freeSlot (h : memory.Keeps references (slots + 1)) :
    memory.freeSlot.Keeps references slots where
  holders := h.holders
  slots pool hpool := by
    obtain ⟨before, hbefore, rfl⟩ := Option.map_eq_some_iff.mp hpool
    exact (h.slots before hbefore).free
  blank := h.blank

/-- A slot is refused exactly when all are in use. -/
lemma takeSlot_eq (h : memory.Keeps references slots) :
    (∃ pool, memory.pool = some pool ∧ slots = pool.capacity ∧
        memory.takeSlot = .error (.poolExhausted slots)) ∨
      (∀ pool ∈ memory.pool, slots < pool.capacity) ∧
        ∃ left, memory.takeSlot = .ok left ∧ left.Keeps references (slots + 1) ∧
          left.accounts = memory.accounts ∧ left.next = memory.next ∧
          left.pool.map Pool.capacity = memory.pool.map Pool.capacity := by
  rcases hmemory : memory.pool with _ | pool
  · refine .inr ⟨nofun, memory, ?_, ⟨h.holders, ?_, h.blank⟩, rfl, rfl, ?_⟩
    · rw [Memory.takeSlot, hmemory]
      rfl
    · rw [hmemory]
      nofun
    · rw [hmemory]
  · rw [Memory.takeSlot, hmemory]
    obtain ⟨hfull, halloc⟩ | ⟨hfree, after, halloc, hcapacity, hcounts⟩ :=
      (h.slots pool hmemory).alloc_eq
    · refine .inl ⟨pool, rfl, hfull, ?_⟩
      simp only [halloc]
      rfl
    · refine .inr ⟨by simpa using hfree, { memory with pool := some after }, ?_,
        ⟨h.holders, ?_, h.blank⟩, rfl, rfl, ?_⟩
      · simp only [halloc]
        rfl
      · simpa using hcounts
      · exact congrArg some hcapacity

end Keeps

lemma next_releaseAll (memory : Memory) (segments : List Segment) :
    (memory.releaseAll segments).next = memory.next := by
  induction segments generalizing memory with
  | nil => rfl
  | cons segment segments ih =>
    cases segment with
    | owned bytes => exact ih memory
    | shared buffer => exact ih (memory.release buffer)

lemma next_drop (memory : Memory) (packet : Packet) : (memory.drop packet).next = memory.next := by
  rw [drop]
  split_ifs
  · exact next_releaseAll memory packet.segments
  · exact next_releaseAll memory packet.segments

/-- A packet that is dropped gives back what it held. -/
lemma Keeps.drop {packet : Packet}
    (h : memory.Keeps (packet.buffers ++ references) (slots + packet.pooled.toNat)) :
    (memory.drop packet).Keeps references slots := by
  have hreleased : (memory.releaseAll packet.segments).Keeps references
      (slots + packet.pooled.toNat) := h.releaseAll
  rw [Memory.drop]
  cases hpooled : packet.pooled with
  | false =>
    rw [hpooled] at hreleased
    exact hreleased
  | true =>
    rw [hpooled] at hreleased
    exact hreleased.freeSlot

end Memory

end OpenFronthaul
