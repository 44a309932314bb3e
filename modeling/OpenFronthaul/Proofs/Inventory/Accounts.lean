import OpenFronthaul.Proofs.Inventory.Callbacks

/-!
# Accounts agree with the objects that are alive

An inventory counts holders and slots while objects come and go under names, and a name that is
given anew lets the earlier object go.  What is alive can be counted from the objects themselves
(`Inventory.live`, `Inventory.liveSlots`).  No action spoils the accounts (`Inventory.Sound.step`),
so that after any run they say what is alive, and the callback of a buffer has run once if the
buffer was ever let go (`Inventory.accounts_run`).
-/

namespace OpenFronthaul

/-! ## What is alive -/

namespace Inventory

variable {inv : Inventory} {name : String}

/-- The references that are alive: those outside packets and those of packets. -/
def live (inv : Inventory) : List SharedBuffer :=
  inv.references.values ++ inv.packets.values.flatMap Packet.buffers

/-- The slots that are alive: those outside packets and those of packets. -/
def liveSlots (inv : Inventory) : ℕ :=
  inv.slots.length + inv.packets.values.countP (·.pooled)

/-- The inventory after an action; one that fails changes nothing. -/
def after (inv : Inventory) (action : Action) : Inventory :=
  match inv.perform action with
  | .ok (_, left) => left
  | .error _ => inv

/-- The inventory after some actions. -/
def run (inv : Inventory) (actions : List Action) : Inventory :=
  actions.foldl after inv

/-- An inventory without objects, and a pool with some slots. -/
def empty (capacity : ℕ) : Inventory :=
  { memory := { pool := some { capacity } } }

/-- The accounts are right: every object has a name of its own, and the accounts say what is alive.
-/
structure Sound (inv : Inventory) : Prop where
  references : inv.references.Distinct
  packets : inv.packets.Distinct
  slots : inv.slots.Distinct
  keeps : inv.memory.Keeps inv.live inv.liveSlots
  /-- Every handle is that of an account. -/
  opened : ∀ buffer ∈ inv.buffers.values, buffer.account < inv.memory.next

lemma sound_empty (capacity : ℕ) : (empty capacity).Sound where
  references := List.nodup_nil
  packets := List.nodup_nil
  slots := List.nodup_nil
  keeps :=
    { holders := fun _ => by simp [empty, Memory.holders, Memory.account, live, Named.values,
        Memory.referencesTo]
      slots := by
        rintro pool hpool
        obtain rfl : { capacity } = pool := Option.some.inj hpool
        exact ⟨rfl, rfl, Nat.zero_le _⟩
      blank := fun _ _ => by simp [empty, Memory.account] }
  opened := nofun

/-! ### References -/

namespace Sound

lemma putReference {buffer : SharedBuffer} (h : inv.Sound)
    (hopen : buffer.account < inv.memory.next) (name : String) :
    (inv.putReference name buffer).Sound := by
  have hkeeps := h.keeps.attach hopen
  have hperm : (buffer :: inv.live).Perm
      ((inv.references.find? name).toList ++ (inv.putReference name buffer).live) := by
    refine .trans (.cons _ ((h.references.perm_erase name).append_right _)) ?_
    rw [List.append_assoc]
    exact List.perm_middle.symm
  rcases hfind : inv.references.find? name with _ | old
  · rw [hfind] at hperm
    simp only [Inventory.putReference, hfind] at hperm ⊢
    exact ⟨h.references.put name buffer, h.packets, h.slots, hkeeps.perm hperm, h.opened⟩
  · rw [hfind] at hperm
    simp only [Inventory.putReference, hfind] at hperm ⊢
    exact ⟨h.references.put name buffer, h.packets, h.slots, (hkeeps.perm hperm).release, h.opened⟩

lemma dropReference {buffer : SharedBuffer} (h : inv.Sound)
    (hfind : inv.references.find? name = some buffer) :
    Sound { inv with
      memory := inv.memory.release buffer, references := inv.references.erase name } := by
  have hperm := (h.references.perm_erase name).append_right
    (inv.packets.values.flatMap Packet.buffers)
  rw [hfind] at hperm
  exact ⟨h.references.erase name, h.packets, h.slots, (h.keeps.perm hperm).release, h.opened⟩

end Sound

/-! ### Packets and slots -/

/-- The references of the packets but that of a name. -/
def otherBuffers (inv : Inventory) (name : String) : List SharedBuffer :=
  inv.references.values ++ (Named.erase inv.packets name).values.flatMap Packet.buffers

/-- The slots but that of the packet of a name. -/
def otherSlots (inv : Inventory) (name : String) : ℕ :=
  inv.slots.length + (Named.erase inv.packets name).values.countP (·.pooled)

lemma liveSlots_putPacket (inv : Inventory) (name : String) (packet : Packet) :
    { inv with packets := inv.packets.put name packet }.liveSlots =
      inv.otherSlots name + packet.pooled.toNat := by
  rw [liveSlots, Named.values_put, List.countP_cons, otherSlots, ← Nat.add_assoc]
  cases packet.pooled <;> rfl

lemma live_putPacket (inv : Inventory) (name : String) (packet : Packet) :
    { inv with packets := inv.packets.put name packet }.live.Perm
      (packet.buffers ++ inv.otherBuffers name) :=
  List.perm_append_comm_assoc _ _ _

namespace Sound

lemma live_perm (h : inv.Sound) (name : String) :
    inv.live.Perm ((inv.packets.find? name).toList.flatMap Packet.buffers ++
      inv.otherBuffers name) := by
  have hpackets := (h.packets.perm_erase name).flatMap_right Packet.buffers
  rw [List.flatMap_append] at hpackets
  exact (hpackets.append_left _).trans (List.perm_append_comm_assoc _ _ _)

lemma liveSlots_eq (h : inv.Sound) (name : String) :
    inv.liveSlots = inv.otherSlots name + (inv.packets.find? name).toList.countP (·.pooled) := by
  rw [liveSlots, (h.packets.perm_erase name).countP_eq, List.countP_append, otherSlots]
  omega

/-- What is kept besides the packet of a name. -/
lemma keeps_of_packet {packet : Packet} {memory : Memory} (h : inv.Sound)
    (hfind : inv.packets.find? name = some packet) (more : List SharedBuffer) (slots : ℕ)
    (hkeeps : memory.Keeps (more ++ inv.live) (inv.liveSlots + slots)) :
    memory.Keeps (packet.buffers ++ (more ++ inv.otherBuffers name))
      (inv.otherSlots name + slots + packet.pooled.toNat) := by
  have hslots := h.liveSlots_eq name
  have hlive := h.live_perm name
  rw [hfind, Option.toList_some] at hslots hlive
  rw [List.flatMap_singleton] at hlive
  have hcount : [packet].countP (·.pooled) = packet.pooled.toNat := by
    rw [List.countP_singleton]
    cases packet.pooled <;> rfl
  rw [hslots, hcount, Nat.add_right_comm] at hkeeps
  exact hkeeps.perm ((hlive.append_left more).trans (List.perm_append_comm_assoc _ _ _))

lemma putPacket {memory : Memory} (h : inv.Sound) (packet : Packet)
    (hkeeps : memory.Keeps (packet.buffers ++ inv.live) (inv.liveSlots + packet.pooled.toNat))
    (hnext : memory.next = inv.memory.next) (name : String) :
    (Inventory.putPacket { inv with memory } name packet).Sound := by
  have hlive := (inv.live_putPacket name packet).symm
  have hslots := (inv.liveSlots_putPacket name packet).symm
  rcases hfind : inv.packets.find? name with _ | old
  · have hrest := h.live_perm name
    have hcount := h.liveSlots_eq name
    rw [hfind] at hrest hcount
    rw [hcount] at hkeeps
    simp only [Inventory.putPacket, hfind]
    refine ⟨h.references, h.packets.put name packet, h.slots, ?_, hnext ▸ h.opened⟩
    exact hslots ▸ hkeeps.perm ((hrest.append_left _).trans hlive)
  · have hdropped := (h.keeps_of_packet hfind packet.buffers packet.pooled.toNat hkeeps).drop
    simp only [Inventory.putPacket, hfind]
    refine ⟨h.references, h.packets.put name packet, h.slots, hslots ▸ hdropped.perm hlive, ?_⟩
    rw [Memory.next_drop, hnext]
    exact h.opened

lemma dropPacket {packet : Packet} (h : inv.Sound) (hfind : inv.packets.find? name = some packet) :
    Sound { inv with memory := inv.memory.drop packet, packets := inv.packets.erase name } := by
  refine ⟨h.references, h.packets.erase name, h.slots, ?_, ?_⟩
  · exact (h.keeps_of_packet hfind [] 0 h.keeps).drop
  · rw [Memory.next_drop]
    exact h.opened

/-- A packet whose references stay, and which may get more. -/
lemma changePacket {packet : Packet} {memory : Memory} {more : List SharedBuffer} (h : inv.Sound)
    (hfind : inv.packets.find? name = some packet) (change : Packet → Packet)
    (hbuffers : (change packet).buffers = packet.buffers ++ more)
    (hpooled : (change packet).pooled = packet.pooled)
    (hkeeps : memory.Keeps (more ++ inv.live) inv.liveSlots)
    (hnext : memory.next = inv.memory.next) :
    Sound { inv.changePacket name change with memory } := by
  have hkept := h.keeps_of_packet hfind more 0 hkeeps
  rw [← List.append_assoc, ← hbuffers, ← hpooled] at hkept
  simp only [Inventory.changePacket, hfind]
  refine ⟨h.references, h.packets.put name _, h.slots, ?_, hnext ▸ h.opened⟩
  have hslots := inv.liveSlots_putPacket name (change packet)
  exact hslots ▸ hkept.perm (inv.live_putPacket name (change packet)).symm

lemma length_slots (h : inv.Sound) (name : String) : inv.slots.length =
    (Named.erase inv.slots name).length + (inv.slots.find? name).toList.length := by
  have hlength := (h.slots.perm_erase name).length_eq
  rwa [List.length_append, Named.values, Named.values, List.length_map, List.length_map,
    Nat.add_comm] at hlength

lemma putSlot {left : Memory} (h : inv.Sound) (hkeeps : left.Keeps inv.live (inv.liveSlots + 1))
    (hnext : left.next = inv.memory.next) (name : String) :
    Sound { inv with
      memory := if (inv.slots.find? name).isSome then left.freeSlot else left
      slots := inv.slots.put name () } := by
  have hlength := h.length_slots name
  have hput : (inv.slots.put name ()).length = (Named.erase inv.slots name).length + 1 := rfl
  refine ⟨h.references, h.packets, h.slots.put name (), ?_, ?_⟩
  · rw [liveSlots] at hkeeps ⊢
    dsimp only
    cases hfind : inv.slots.find? name with
    | none =>
      rw [hfind, Option.toList_none, List.length_nil] at hlength
      rw [Option.isSome_none, if_neg Bool.false_ne_true, hput]
      rwa [hlength, Nat.add_zero, Nat.add_right_comm] at hkeeps
    | some old =>
      rw [hfind, Option.toList_some, List.length_singleton] at hlength
      rw [Option.isSome_some, if_pos rfl, hput, ← hlength]
      exact hkeeps.freeSlot
  · dsimp only
    split_ifs
    · exact hnext ▸ h.opened
    · exact hnext ▸ h.opened

lemma dropSlot (h : inv.Sound) (hfind : (inv.slots.find? name).isSome) :
    Sound { inv with memory := inv.memory.freeSlot, slots := inv.slots.erase name } := by
  obtain ⟨slot, hslot⟩ := Option.isSome_iff_exists.mp hfind
  have hlength := h.length_slots name
  rw [hslot, Option.toList_some, List.length_singleton] at hlength
  refine ⟨h.references, h.packets, h.slots.erase name, ?_, h.opened⟩
  have hkeeps := h.keeps
  rw [liveSlots, hlength, Nat.add_right_comm] at hkeeps
  exact hkeeps.freeSlot

/-! ### Actions -/

lemma opened_of_handle {buffer : SharedBuffer} (h : inv.Sound)
    (hfind : inv.buffers.find? name = some buffer) : buffer.account < inv.memory.next :=
  h.opened buffer (Named.mem_values_of_find? hfind)

lemma opened_of_reference {buffer : SharedBuffer} (h : inv.Sound)
    (hfind : inv.references.find? name = some buffer) : buffer.account < inv.memory.next :=
  h.keeps.opened (List.mem_append_left _ (Named.mem_values_of_find? hfind))

lemma held_of_reference {buffer : SharedBuffer} (h : inv.Sound)
    (hfind : inv.references.find? name = some buffer) : 0 < inv.memory.holders buffer := by
  have hmem : buffer ∈ inv.live := List.mem_append_left _ (Named.mem_values_of_find? hfind)
  rw [h.keeps.holders]
  exact List.countP_pos_iff.mpr ⟨buffer, hmem, decide_eq_true rfl⟩

end Sound

namespace Action

/-- An action that takes a slot of the pool. -/
def takesSlot : Action → Bool
  | newPooledPacket _ => true
  | takeSlot _ => true
  | _ => false

end Action

lemma memory_changePacket (inv : Inventory) (name : String) (change : Packet → Packet) :
    (inv.changePacket name change).memory = inv.memory := by
  rw [changePacket]
  split
  · rfl
  · rfl

lemma buffers_append (packet : Packet) (bytes : Bytes) :
    (packet.append bytes).buffers = packet.buffers := by
  rw [Packet.append]
  split_ifs
  · rfl
  · rw [Packet.buffers, List.filterMap_append]
    exact List.append_nil _

lemma pooled_append (packet : Packet) (bytes : Bytes) :
    (packet.append bytes).pooled = packet.pooled := by
  rw [Packet.append]
  split_ifs
  · rfl
  · rfl

/-- What an action may lead to. -/
structure Step (inv left : Inventory) : Prop where
  sound : left.Sound
  memory : inv.memory.Step left.memory

lemma Step.refl (h : inv.Sound) : inv.Step inv :=
  ⟨h, .refl _⟩

namespace Sound

lemma step_putReference {buffer : SharedBuffer} (h : inv.Sound)
    (hopen : buffer.account < inv.memory.next) (name : String) :
    inv.Step (inv.putReference name buffer) := by
  refine ⟨h.putReference hopen name, ?_⟩
  rcases hfind : inv.references.find? name with _ | old
  · simp only [Inventory.putReference, hfind]
    exact inv.memory.step_attach buffer
  · simp only [Inventory.putReference, hfind]
    exact Memory.step_replace (h.held_of_reference hfind) buffer

lemma step_putPacket {memory : Memory} (h : inv.Sound) (packet : Packet)
    (hkeeps : memory.Keeps (packet.buffers ++ inv.live) (inv.liveSlots + packet.pooled.toNat))
    (haccounts : memory.accounts = inv.memory.accounts) (hnext : memory.next = inv.memory.next)
    (hcapacity : memory.pool.map Pool.capacity = inv.memory.pool.map Pool.capacity)
    (name : String) : inv.Step (Inventory.putPacket { inv with memory } name packet) := by
  refine ⟨h.putPacket packet hkeeps hnext name, ?_⟩
  rcases hfind : inv.packets.find? name with _ | old
  · simp only [Inventory.putPacket, hfind]
    exact .of_accounts (.refl memory) haccounts hnext hcapacity
  · simp only [Inventory.putPacket, hfind]
    exact .of_accounts (memory.step_drop old) haccounts hnext hcapacity

/-- Bytes of its own change nothing of what a packet holds. -/
lemma step_changePacket (h : inv.Sound) (name : String) {change : Packet → Packet}
    (hbuffers : ∀ packet, (change packet).buffers = packet.buffers)
    (hpooled : ∀ packet, (change packet).pooled = packet.pooled) :
    inv.Step (inv.changePacket name change) := by
  rcases hfind : inv.packets.find? name with _ | packet
  · simp only [Inventory.changePacket, hfind]
    exact .refl h
  · have hsame : (change packet).buffers = packet.buffers ++ [] := by
      rw [hbuffers, List.append_nil]
    have hchanged := h.changePacket hfind change hsame (hpooled packet) h.keeps rfl
    simp only [Inventory.changePacket, hfind] at hchanged ⊢
    exact ⟨hchanged, .refl _⟩

/-- An action without need of a slot is carried out. -/
lemma perform_eq_ok {action : Action} (h : inv.Sound) (hslot : action.takesSlot = false) :
    ∃ answer left, inv.perform action = .ok (answer, left) ∧ inv.Step left := by
  cases action with
  | share name bytes callback =>
    refine ⟨_, _, rfl, ⟨h.references, h.packets, h.slots, h.keeps.share bytes callback, ?_⟩,
      inv.memory.step_share bytes callback⟩
    refine List.forall_mem_cons.mpr ⟨Nat.lt_succ_self _, fun buffer hbuffer => ?_⟩
    exact Nat.lt_succ_of_lt (h.opened buffer (Named.mem_values_of_mem_erase hbuffer))
  | cloneBuffer name source =>
    rw [perform]
    rcases hfind : inv.buffers.find? source with _ | buffer
    · exact ⟨_, _, rfl, .refl h⟩
    · have hopened : ∀ other ∈ (inv.buffers.put name buffer).values,
          other.account < inv.memory.next :=
        List.forall_mem_cons.mpr ⟨h.opened_of_handle hfind,
          fun other hother => h.opened other (Named.mem_values_of_mem_erase hother)⟩
      exact ⟨_, _, rfl, ⟨h.references, h.packets, h.slots, h.keeps, hopened⟩, .refl _⟩
  | dropBuffer name =>
    have hopened : ∀ other ∈ (Named.erase inv.buffers name).values,
        other.account < inv.memory.next :=
      fun other hother => h.opened other (Named.mem_values_of_mem_erase hother)
    exact ⟨_, _, rfl, ⟨h.references, h.packets, h.slots, h.keeps, hopened⟩, .refl _⟩
  | sameContents name source => exact ⟨_, _, rfl, .refl h⟩
  | attach name source =>
    rw [perform]
    rcases hfind : inv.buffers.find? source with _ | buffer
    · exact ⟨_, _, rfl, .refl h⟩
    · exact ⟨_, _, rfl, h.step_putReference (h.opened_of_handle hfind) name⟩
  | cloneReference name source =>
    rw [perform]
    rcases hfind : inv.references.find? source with _ | buffer
    · exact ⟨_, _, rfl, .refl h⟩
    · exact ⟨_, _, rfl, h.step_putReference (h.opened_of_reference hfind) name⟩
  | dropReference name =>
    rw [perform]
    rcases hfind : inv.references.find? name with _ | buffer
    · exact ⟨_, _, rfl, .refl h⟩
    · exact ⟨_, _, rfl, h.dropReference hfind, inv.memory.step_release buffer⟩
  | isAttached name source => exact ⟨_, _, rfl, .refl h⟩
  | newPacket name =>
    exact ⟨_, _, rfl, h.step_putPacket {} h.keeps rfl rfl rfl name⟩
  | newPooledPacket name => cases hslot
  | takeSlot name => cases hslot
  | freeSlot name =>
    rw [perform]
    split_ifs with hfind
    · exact ⟨_, _, rfl, h.dropSlot hfind, inv.memory.step_freeSlot⟩
    · exact ⟨_, _, rfl, .refl h⟩
  | append name bytes =>
    exact ⟨_, _, rfl, h.step_changePacket name (buffers_append · bytes) (pooled_append · bytes)⟩
  | prepend name bytes =>
    exact ⟨_, _, rfl, h.step_changePacket name (fun _ => rfl) (fun _ => rfl)⟩
  | appendShared name source =>
    rcases hfind : inv.buffers.find? source with _ | buffer
    · exact ⟨none, inv, by rw [perform, hfind]; rfl, .refl h⟩
    · rcases hpacket : inv.packets.find? name with _ | packet
      · exact ⟨none, inv, by rw [perform, hfind, hpacket]; rfl, .refl h⟩
      · have hbuffers : (packet.appendShared buffer).buffers = packet.buffers ++ [buffer] :=
          List.filterMap_append
        have hchanged := h.changePacket hpacket (·.appendShared buffer) hbuffers rfl
          (h.keeps.attach (h.opened_of_handle hfind)) rfl
        rw [perform, hfind, hpacket]
        dsimp only
        rw [memory_changePacket]
        exact ⟨_, _, rfl, hchanged, inv.memory.step_attach buffer⟩
  | dropPacket name =>
    rw [perform]
    rcases hfind : inv.packets.find? name with _ | packet
    · exact ⟨_, _, rfl, .refl h⟩
    · exact ⟨_, _, rfl, h.dropPacket hfind, inv.memory.step_drop packet⟩

/-- A slot is taken unless all are in use. -/
lemma perform_takesSlot {action : Action} (h : inv.Sound) (hslot : action.takesSlot) :
    (∃ pool, inv.memory.pool = some pool ∧ inv.liveSlots = pool.capacity ∧
        inv.perform action = .error (.poolExhausted inv.liveSlots)) ∨
      (∀ pool ∈ inv.memory.pool, inv.liveSlots < pool.capacity) ∧
        ∃ answer left, inv.perform action = .ok (answer, left) ∧ inv.Step left := by
  obtain ⟨pool, hpool, hfull, htake⟩ | ⟨hfree, left, htake, hkeeps, haccounts, hnext, hcapacity⟩ :=
    h.keeps.takeSlot_eq
  · refine .inl ⟨pool, hpool, hfull, ?_⟩
    cases action with
    | newPooledPacket name => rw [perform, htake]; rfl
    | takeSlot name => rw [perform, htake]; rfl
    | _ => cases hslot
  · refine .inr ⟨hfree, ?_⟩
    cases action with
    | newPooledPacket name =>
      rw [perform, htake]
      exact ⟨_, _, rfl,
        h.step_putPacket { pooled := true } hkeeps haccounts hnext hcapacity name⟩
    | takeSlot name =>
      rw [perform, htake]
      refine ⟨_, _, rfl, h.putSlot hkeeps hnext name, ?_⟩
      dsimp only
      split_ifs
      · exact .of_accounts left.step_freeSlot haccounts hnext hcapacity
      · exact .of_accounts (.refl left) haccounts hnext hcapacity
    | _ => cases hslot

/-- An action fails exactly when it needs a slot and all are in use. -/
lemma perform_eq_error_iff {action : Action} {e : LinkError} {pool : Pool} (h : inv.Sound)
    (hpool : inv.memory.pool = some pool) : inv.perform action = .error e ↔
      action.takesSlot ∧ inv.liveSlots = pool.capacity ∧ e = .poolExhausted pool.capacity := by
  cases hslot : action.takesSlot with
  | false =>
    obtain ⟨answer, left, hperform, -⟩ := h.perform_eq_ok hslot
    rw [hperform]
    exact ⟨nofun, nofun⟩
  | true =>
    obtain ⟨full, hsome, hfull, hperform⟩ | ⟨hfree, answer, left, hperform, -⟩ :=
      h.perform_takesSlot hslot
    · obtain rfl : pool = full := Option.some.inj (hpool.symm.trans hsome)
      rw [hperform, ← hfull]
      exact ⟨fun he => ⟨rfl, rfl, (Except.error.inj he).symm⟩, fun he => by rw [he.2.2]⟩
    · rw [hperform]
      exact ⟨nofun, fun he => absurd he.2.1 (hfree pool hpool).ne⟩

/-- Every action leaves the accounts right. -/
lemma step (h : inv.Sound) (action : Action) : inv.Step (inv.after action) := by
  rw [Inventory.after]
  cases hslot : action.takesSlot with
  | false =>
    obtain ⟨answer, left, hperform, hstep⟩ := h.perform_eq_ok hslot
    rw [hperform]
    exact hstep
  | true =>
    obtain ⟨-, -, -, hperform⟩ | ⟨-, answer, left, hperform, hstep⟩ := h.perform_takesSlot hslot
    · rw [hperform]
      exact .refl h
    · rw [hperform]
      exact hstep

end Sound

/-! ### Runs -/

lemma run_append (inv : Inventory) (actions more : List Action) :
    inv.run (actions ++ more) = (inv.run actions).run more :=
  List.foldl_append

lemma run_concat (inv : Inventory) (actions : List Action) (action : Action) :
    inv.run (actions ++ [action]) = (inv.run actions).after action :=
  inv.run_append actions [action]

/-- One of some actions lets the last holders of a buffer go. -/
def LetGo (inv : Inventory) (actions : List Action) (buffer : SharedBuffer) : Prop :=
  ∃ before action rest, actions = before ++ action :: rest ∧
    0 < (inv.run before).memory.holders buffer ∧
    (inv.run (before ++ [action])).memory.holders buffer = 0

lemma letGo_concat (inv : Inventory) (actions : List Action) (action : Action)
    (buffer : SharedBuffer) : inv.LetGo (actions ++ [action]) buffer ↔
      inv.LetGo actions buffer ∨ ((inv.run actions).memory.account buffer.account).Empties
        ((inv.run (actions ++ [action])).memory.account buffer.account) := by
  constructor
  · rintro ⟨before, last, rest, hsplit, hheld, hempty⟩
    rcases List.eq_nil_or_concat rest with rfl | ⟨more, other, rfl⟩
    · obtain ⟨rfl, hlast⟩ := List.append_inj' hsplit rfl
      obtain rfl := List.singleton_inj.mp hlast
      exact .inr ⟨hheld, hempty⟩
    · rw [List.concat_eq_append, ← List.cons_append, ← List.append_assoc] at hsplit
      obtain ⟨hactions, -⟩ := List.append_inj' hsplit rfl
      exact .inl ⟨before, last, more, hactions, hheld, hempty⟩
  · rintro (⟨before, last, rest, rfl, hheld, hempty⟩ | ⟨hheld, hempty⟩)
    · exact ⟨before, last, rest ++ [action], by simp, hheld, hempty⟩
    · exact ⟨actions, action, [], rfl, hheld, hempty⟩

namespace Sound

/-- What every step leaves true, a run leaves true. -/
lemma run (h : inv.Sound) (actions : List Action) :
    (inv.run actions).Sound ∧
      (inv.run actions).memory.pool.map Pool.capacity = inv.memory.pool.map Pool.capacity ∧
      inv.memory.next ≤ (inv.run actions).memory.next := by
  induction actions generalizing inv with
  | nil => exact ⟨h, rfl, le_rfl⟩
  | cons action actions ih =>
    have hstep := h.step action
    obtain ⟨hsound, hcapacity, hnext⟩ := ih hstep.sound
    exact ⟨hsound, hcapacity.trans hstep.memory.capacity, hstep.memory.next_le.trans hnext⟩

/-- From the time a buffer is shared its account tells whether it was ever let go. -/
lemma tells_run (h : inv.Sound) (buffer : SharedBuffer) (callback : Bool)
    (hopen : buffer.account < inv.memory.next)
    (hnew : inv.memory.account buffer.account = { armed := callback }) (actions : List Action) :
    ((inv.run actions).memory.account buffer.account).Tells callback
      (inv.LetGo actions buffer) := by
  induction actions using List.reverseRecOn with
  | nil =>
    have hnone : ¬inv.LetGo [] buffer := by
      rintro ⟨before, action, rest, hsplit, -⟩
      exact List.append_ne_nil_of_right_ne_nil before (List.cons_ne_nil action rest) hsplit.symm
    refine ⟨fun _ => ?_, fun hgone => absurd hgone hnone⟩
    exact ⟨congrArg Account.armed hnew, congrArg Account.released hnew⟩
  | append_singleton actions action ih =>
    obtain ⟨hsound, -, hnext⟩ := h.run actions
    have hmoves := (hsound.step action).memory.moves buffer.account (hopen.trans_le hnext)
    rw [← run_concat] at hmoves
    exact (ih.moves hmoves).congr (inv.letGo_concat actions action buffer).symm

end Sound

/-- What the accounts of an inventory say when its pool has a number of slots. -/
structure Accounted (inv : Inventory) (capacity : ℕ) : Prop where
  /-- A buffer has as many holders as there are references to it, in packets and outside; handles
  do not count. -/
  holders : ∀ buffer, inv.memory.holders buffer = Memory.referencesTo buffer inv.live
  /-- The slots in use are those that were taken and not given back, and those that are alive.  An
  action fails exactly when it needs a slot and all are in use. -/
  slots : ∃ pool, inv.memory.pool = some pool ∧ pool.capacity = capacity ∧
    pool.allocs = pool.inUse + pool.frees ∧ pool.inUse = inv.liveSlots ∧ pool.inUse ≤ capacity ∧
    ∀ action e, inv.perform action = .error e ↔
      action.takesSlot ∧ pool.inUse = capacity ∧ e = .poolExhausted capacity
  /-- An action that fails changes nothing. -/
  unchanged : ∀ action e, inv.perform action = .error e → inv.after action = inv
  /-- A packet in one piece is its segments one after the other, and as long as the packet. -/
  contiguous : ∀ packet ∈ inv.packets.values,
    packet.contiguous = packet.segments.flatMap Segment.bytes ∧
      packet.contiguous.length = packet.length

lemma Sound.accounted {capacity : ℕ} (h : inv.Sound)
    (hcapacity : inv.memory.pool.map Pool.capacity = some capacity) : inv.Accounted capacity := by
  obtain ⟨pool, hpool, rfl⟩ := Option.map_eq_some_iff.mp hcapacity
  obtain ⟨hinUse, hallocs, hle⟩ := h.keeps.slots pool hpool
  refine ⟨h.keeps.holders, ⟨pool, hpool, rfl, ?_, hinUse, ?_, fun action e => ?_⟩, ?_, ?_⟩
  · rw [hinUse, hallocs]
  · rw [hinUse]
    exact hle
  · rw [hinUse]
    exact h.perform_eq_error_iff hpool
  · intro action e he
    rw [Inventory.after, he]
  · intro packet _
    rw [packet.contiguous_eq_wire]
    exact ⟨rfl, packet.length_wire⟩

/-- Whatever is done with the objects of an inventory, the accounts say what is alive; and the
callback of a buffer, if it has one, has run once since the last holders went for the first time,
and has not run before. -/
theorem accounts_run (capacity : ℕ) :
    (∀ actions, ((empty capacity).run actions).Accounted capacity) ∧
    ∀ (before : List Action) (name : String) (bytes : Bytes) (callback : Bool)
      (rest : List Action),
      ∃ buffer, let shared := (empty capacity).run (before ++ [.share name bytes callback])
        let released := ((shared.run rest).memory.account buffer.account).released
        shared.buffers.find? name = some buffer ∧ buffer.bytes = bytes ∧
        (∀ other ∈ ((empty capacity).run before).buffers.values ++
          ((empty capacity).run before).live, other.account ≠ buffer.account) ∧
        (callback ∧ shared.LetGo rest buffer → released = 1) ∧
        (¬(callback ∧ shared.LetGo rest buffer) → released = 0) := by
  refine ⟨fun actions => ?_, fun before name bytes callback rest => ?_⟩
  · obtain ⟨hsound, hcapacity, -⟩ := (sound_empty capacity).run actions
    exact hsound.accounted hcapacity
  · obtain ⟨hbefore, -, -⟩ := (sound_empty capacity).run before
    have hshared := (hbefore.step (.share name bytes callback)).sound
    rw [run_concat]
    have htells := hshared.tells_run ⟨((empty capacity).run before).memory.next, bytes⟩ callback
      (Nat.lt_succ_self _) (Memory.account_share_self _ bytes callback) rest
    refine ⟨⟨((empty capacity).run before).memory.next, bytes⟩, List.lookup_cons_self, rfl, ?_,
      htells.released_eq_one, htells.released_eq_zero⟩
    refine List.forall_mem_append.mpr ⟨fun other hother => ?_, fun other hother => ?_⟩
    · exact (hbefore.opened other hother).ne
    · exact (hbefore.keeps.opened hother).ne

end Inventory

end OpenFronthaul
