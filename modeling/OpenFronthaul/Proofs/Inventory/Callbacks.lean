import OpenFronthaul.Proofs.Inventory.Holdings

/-!
# The callback of a shared buffer

A buffer that is shared with a callback may be held and let go many times.  What is done to an
account at once is a `Moves`: the last holders may go, and then a callback that still waits runs.
After any number of moves the account tells whether the last holders have gone at some time, and the
callback has run once if they have and not at all otherwise (`Account.Tells`).
-/

namespace OpenFronthaul

/-! ## Accounts -/

namespace Account

variable {before between after : Account}

/-- The last holders of a buffer go. -/
def Empties (before after : Account) : Prop :=
  0 < before.holders ∧ after.holders = 0

/-- What can happen to an account: when the last holders go a waiting callback runs, and otherwise
it is as before. -/
structure Moves (before after : Account) : Prop where
  empties : before.Empties after →
    after.armed = false ∧ after.released = before.released + before.armed.toNat
  stays : ¬before.Empties after →
    after.armed = before.armed ∧ after.released = before.released

lemma Moves.refl (account : Account) : account.Moves account where
  empties h := absurd h.2 h.1.ne'
  stays _ := ⟨rfl, rfl⟩

lemma moves_attach (account : Account) : account.Moves account.attach where
  empties h := absurd h.2 (Nat.succ_ne_zero _)
  stays _ := ⟨rfl, rfl⟩

lemma holders_release (account : Account) : account.release.holders = account.holders - 1 := by
  rw [release]
  split_ifs with hlast
  · rw [hlast.1]
  · rfl

lemma moves_release (account : Account) : account.Moves account.release := by
  constructor
  · rintro ⟨hheld, hempty⟩
    rw [holders_release] at hempty
    have hone : account.holders = 1 := by omega
    rw [release]
    split_ifs with hlast
    · rw [hlast.2]
      exact ⟨rfl, rfl⟩
    · obtain harmed : account.armed = false := by simpa [hone] using hlast
      exact ⟨harmed, by rw [harmed]; rfl⟩
  · intro hstays
    rw [release]
    split_ifs with hlast
    · refine absurd ⟨?_, ?_⟩ hstays
      · rw [hlast.1]
        exact Nat.one_pos
      · rw [holders_release, hlast.1]
    · exact ⟨rfl, rfl⟩

/-- One after the other, if holders only go. -/
lemma Moves.trans (h : before.Moves between) (h' : between.Moves after)
    (hle : between.holders ≤ before.holders) (hle' : after.holders ≤ between.holders) :
    before.Moves after := by
  by_cases hfirst : before.Empties between
  · have hthen : ¬between.Empties after := fun hempties => hempties.1.ne' hfirst.2
    have hboth : before.Empties after := ⟨hfirst.1, Nat.le_zero.mp (hfirst.2 ▸ hle')⟩
    obtain ⟨harmed, hreleased⟩ := h'.stays hthen
    obtain ⟨harmed', hreleased'⟩ := h.empties hfirst
    exact ⟨fun _ => ⟨harmed.trans harmed', hreleased.trans hreleased'⟩, absurd hboth⟩
  · obtain ⟨harmed, hreleased⟩ := h.stays hfirst
    have hsame : before.Empties after ↔ between.Empties after := by
      rw [Empties] at hfirst
      rw [Empties, Empties]
      omega
    constructor
    · intro hempties
      rw [← harmed, ← hreleased]
      exact h'.empties (hsame.mp hempties)
    · intro hnot
      rw [← harmed, ← hreleased]
      exact h'.stays fun hempties => hnot (hsame.mpr hempties)

/-- A reference that comes before an earlier one goes leaves the account as it is. -/
lemma release_attach (account : Account) (hheld : 0 < account.holders) :
    account.attach.release = account := by
  have hmany : ¬(account.attach.holders = 1 ∧ account.attach.armed) := fun h =>
    hheld.ne' (Nat.succ_injective h.1)
  rw [release, if_neg hmany]
  rfl

/-- The account tells whether the last holders have gone at some time: a callback waits until then
and has run once since. -/
structure Tells (account : Account) (callback : Bool) (emptied : Prop) : Prop where
  waiting : ¬emptied → account.armed = callback ∧ account.released = 0
  settled : emptied → account.armed = false ∧ account.released = callback.toNat

lemma Tells.moves {callback : Bool} {emptied : Prop} (h : before.Tells callback emptied)
    (hmoves : before.Moves after) : after.Tells callback (emptied ∨ before.Empties after) := by
  constructor
  · intro hnot
    obtain ⟨hnever, hstays⟩ := not_or.mp hnot
    obtain ⟨harmed, hreleased⟩ := hmoves.stays hstays
    rw [harmed, hreleased]
    exact h.waiting hnever
  · intro hemptied
    by_cases hnow : before.Empties after
    · obtain ⟨harmed, hreleased⟩ := hmoves.empties hnow
      refine ⟨harmed, ?_⟩
      rw [hreleased]
      by_cases hearlier : emptied
      · rw [(h.settled hearlier).1, (h.settled hearlier).2]
        rfl
      · rw [(h.waiting hearlier).1, (h.waiting hearlier).2, Nat.zero_add]
    · obtain ⟨harmed, hreleased⟩ := hmoves.stays hnow
      rw [harmed, hreleased]
      exact h.settled (hemptied.resolve_right hnow)

lemma Tells.released_eq_one {account : Account} {callback : Bool} {emptied : Prop}
    (h : account.Tells callback emptied) (hrun : callback ∧ emptied) : account.released = 1 := by
  rw [(h.settled hrun.2).2, hrun.1]
  rfl

lemma Tells.released_eq_zero {account : Account} {callback : Bool} {emptied : Prop}
    (h : account.Tells callback emptied) (hnot : ¬(callback ∧ emptied)) : account.released = 0 := by
  by_cases hemptied : emptied
  · have hcallback : ¬callback := fun hcallback => hnot ⟨hcallback, hemptied⟩
    obtain rfl := Bool.eq_false_iff.mpr hcallback
    exact (h.settled hemptied).2
  · exact (h.waiting hemptied).2

lemma Tells.congr {account : Account} {callback : Bool} {emptied other : Prop}
    (h : account.Tells callback emptied) (hiff : emptied ↔ other) :
    account.Tells callback other where
  waiting hnot := h.waiting (hnot ∘ hiff.mp)
  settled hother := h.settled (hiff.mpr hother)

end Account

/-! ## Memories -/

namespace Memory

variable {memory left after : Memory}

/-- What can be done to a memory at once: the pool stays as large as it is, open accounts stay open,
and a callback runs only when the last holders of its buffer go. -/
structure Step (memory after : Memory) : Prop where
  capacity : after.pool.map Pool.capacity = memory.pool.map Pool.capacity
  next_le : memory.next ≤ after.next
  moves : ∀ number < memory.next, (memory.account number).Moves (after.account number)

lemma Step.refl (memory : Memory) : memory.Step memory :=
  ⟨rfl, le_rfl, fun _ _ => .refl _⟩

lemma step_share (memory : Memory) (bytes : Bytes) (callback : Bool) :
    memory.Step (memory.share bytes callback).2 where
  capacity := rfl
  next_le := Nat.le_succ _
  moves number hopen := by
    rw [account_share, if_neg hopen.ne']
    exact .refl _

lemma step_update (memory : Memory) (number : ℕ) {change : Account → Account}
    (h : ∀ account : Account, account.Moves (change account)) :
    memory.Step (memory.update number change) where
  capacity := rfl
  next_le := le_rfl
  moves other _ := by
    rw [account_update]
    split_ifs
    · exact h _
    · exact .refl _

lemma step_attach (memory : Memory) (buffer : SharedBuffer) : memory.Step (memory.attach buffer) :=
  memory.step_update buffer.account Account.moves_attach

lemma step_release (memory : Memory) (buffer : SharedBuffer) :
    memory.Step (memory.release buffer) :=
  memory.step_update buffer.account Account.moves_release

/-- A reference that is booked before an earlier one goes. -/
lemma step_replace {old : SharedBuffer} (hheld : 0 < memory.holders old) (buffer : SharedBuffer) :
    memory.Step ((memory.attach buffer).release old) where
  capacity := rfl
  next_le := le_rfl
  moves number _ := by
    rw [release, account_update, attach, account_update]
    split_ifs with hold hnew
    · rw [Account.release_attach _ (hold ▸ hheld)]
      exact .refl _
    · exact Account.moves_release _
    · exact Account.moves_attach _
    · exact .refl _

lemma account_release_le (memory : Memory) (buffer : SharedBuffer) (number : ℕ) :
    ((memory.release buffer).account number).holders ≤ (memory.account number).holders := by
  rw [release, account_update]
  split_ifs
  · rw [Account.holders_release]
    exact Nat.sub_le _ _
  · exact le_rfl

lemma moves_releaseAll (memory : Memory) (segments : List Segment) (number : ℕ) :
    (memory.account number).Moves ((memory.releaseAll segments).account number) ∧
      ((memory.releaseAll segments).account number).holders ≤ (memory.account number).holders := by
  induction segments generalizing memory with
  | nil => exact ⟨.refl _, le_rfl⟩
  | cons segment segments ih =>
    cases segment with
    | owned bytes => exact ih memory
    | shared buffer =>
      obtain ⟨hmoves, hle⟩ := ih (memory.release buffer)
      have hfirst : (memory.account number).Moves ((memory.release buffer).account number) := by
        rw [release, account_update]
        split_ifs
        · exact Account.moves_release _
        · exact .refl _
      have hfirst_le := memory.account_release_le buffer number
      exact ⟨hfirst.trans hmoves hfirst_le hle, hle.trans hfirst_le⟩

lemma step_freeSlot (memory : Memory) : memory.Step memory.freeSlot where
  capacity := Option.map_map ..
  next_le := le_rfl
  moves _ _ := .refl _

lemma step_drop (memory : Memory) (packet : Packet) : memory.Step (memory.drop packet) where
  capacity := by
    rw [drop]
    split_ifs
    · exact (memory.releaseAll packet.segments).step_freeSlot.capacity.trans
        (by rw [pool_releaseAll])
    · rw [pool_releaseAll]
  next_le := (next_drop memory packet).ge
  moves number _ := by
    have hreleased := (memory.moves_releaseAll packet.segments number).1
    rw [drop]
    split_ifs
    · exact hreleased
    · exact hreleased

/-- What follows when only the counts of the pool were changed before. -/
lemma Step.of_accounts (h : left.Step after) (haccounts : left.accounts = memory.accounts)
    (hnext : left.next = memory.next)
    (hcapacity : left.pool.map Pool.capacity = memory.pool.map Pool.capacity) :
    memory.Step after where
  capacity := h.capacity.trans hcapacity
  next_le := hnext ▸ h.next_le
  moves number hopen := by
    have hsame : left.account number = memory.account number := by
      rw [account, account, haccounts]
    exact hsame ▸ h.moves number (hnext ▸ hopen)

end Memory

end OpenFronthaul
