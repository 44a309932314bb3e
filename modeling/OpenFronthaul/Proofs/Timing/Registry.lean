import OpenFronthaul.Proofs.Timing.Deadlines

/-!
# The registry of callbacks

The callback of an application is recorded twice: among the callbacks of its symbol, and among the
users, where its number is looked up.  `Consistent` says that the two records are of the same
callbacks; every change of the registry keeps it, and so does a tick (`Reaches.consistent`).  What a
change answers follows from it, and is put together in `Reliable`.
-/

namespace OpenFronthaul

/-- The moment and the symbol of the callback of an application. -/
def UserEntry.key (u : UserEntry) : Moment × Nat :=
  (u.moment, u.symbol)

namespace Scheduler

variable {s t : Scheduler} {symbol other id : Nat} {entry : Callback} {moment : Moment}

/-! ## Runs of the changes -/

/-- The registry with one more callback of an application. -/
def withUser (s : Scheduler) (moment : Moment) (offset : SymbolOffset) : Scheduler :=
  { s.withCallback offset (.user moment) .application 0 1 with
    users := s.users ++ [⟨moment, offset.symbol, s.nextId⟩] }

/-- The registry without the callback of a number, which fires on the given symbol. -/
def without (s : Scheduler) (symbol id : Nat) : Scheduler :=
  { s.setBucket symbol ((s.bucket symbol).eraseP (·.id = id)) with
    users := s.users.filter (·.id ≠ id) }

theorem bucket_withUser (s : Scheduler) (moment : Moment) {offset : SymbolOffset}
    (h : offset.symbol < symbolsPerSlot) (symbol : Nat) :
    (s.withUser moment offset).bucket symbol = s.bucket symbol ++
      if offset.symbol = symbol then
        [{ id := s.nextId, kind := .user moment, job := .application, slots := offset.slots }]
      else [] :=
  bucket_withCallback s h (.user moment) .application 0 1 symbol

namespace Step

theorem run_register (moment : Moment) (symbol : Nat) (s : Scheduler) :
    (register moment symbol).run s =
      if s.isRunning then (.error .callbacksFixed, s)
      else if symbolsPerSlot ≤ symbol then (.error (.symbolOutOfRange symbol), s)
      else if (s.userId? moment (s.momentOffset moment symbol).symbol).isSome then
        (.error (.callbackTaken moment (s.momentOffset moment symbol).symbol), s)
      else (.ok (s.momentOffset moment symbol).symbol,
        s.withUser moment (s.momentOffset moment symbol)) := by
  unfold register
  rw [run_bind, run_checkStopped]
  by_cases hrun : s.isRunning
  · simp only [hrun, if_true]
  simp only [hrun, Bool.false_eq_true, if_false]
  by_cases hsymbol : symbolsPerSlot ≤ symbol
  · simp only [if_pos hsymbol]
    rfl
  simp only [if_neg hsymbol]
  by_cases htaken : (s.userId? moment (s.momentOffset moment symbol).symbol).isSome
  · simp only [run_bind, run_get, if_pos htaken]
    rfl
  · simp only [run_bind, run_get, if_neg htaken]
    rfl

/-- A callback for a moment of a symbol fires as many symbols behind the symbol as the moment
lies. -/
theorem fires_of_register {onAir : Nat} (h : (register moment symbol).run s = (.ok onAir, t)) :
    ∃ entry ∈ t.bucket onAir, entry.id = s.nextId ∧ entry.kind = .user moment ∧
      (SymbolOffset.mk onAir entry.slots).position = symbol + s.momentDistance moment := by
  rw [run_register] at h
  split_ifs at h with hrun hrange htaken
  · cases h
  · cases h
  · cases h
  · obtain ⟨hsymbol, rfl⟩ := Prod.mk.inj h
    obtain rfl := Except.ok.inj hsymbol
    have hlt : (s.momentOffset moment symbol).symbol < symbolsPerSlot :=
      SymbolOffset.symbol_ofPosition_lt _
    rw [bucket_withUser s moment hlt, if_pos rfl]
    exact ⟨_, List.mem_append_right _ (List.mem_singleton.mpr rfl), rfl, rfl,
      SymbolOffset.position_ofPosition _⟩

theorem run_remove_of_running (h : s.isRunning = true) (id : Nat) :
    (remove id).run s = (.error .callbacksFixed, s) := by
  unfold remove
  rw [run_bind, run_checkStopped]
  simp only [h, if_true]

theorem run_remove_of_not_live (hrun : s.isRunning = false) (h : ∀ entry ∈ s.live, entry.id ≠ id) :
    (remove id).run s = (.ok false, s) := by
  have hnone : s.buckets.toList.findIdx? (·.any (·.id = id)) = none := by
    rw [List.findIdx?_eq_none_iff]
    intro bucket hbucket
    rw [List.any_eq_false]
    intro entry hentry
    simpa using h entry (List.mem_flatten.mpr ⟨bucket, hbucket, hentry⟩)
  unfold remove
  rw [run_bind, run_checkStopped]
  simp only [hrun, Bool.false_eq_true, if_false, run_bind, run_get, hnone]
  rfl

theorem run_remove_of_live (hrun : s.isRunning = false) (h : ∃ entry ∈ s.live, entry.id = id) :
    ∃ symbol, (∃ entry ∈ s.bucket symbol, entry.id = id) ∧
      (remove id).run s = (.ok true, s.without symbol id) := by
  cases hfind : s.buckets.toList.findIdx? (·.any (·.id = id)) with
  | none =>
    obtain ⟨entry, hmem, hid⟩ := h
    obtain ⟨bucket, hbucket, hentry⟩ := List.mem_flatten.mp hmem
    have hany := List.findIdx?_eq_none_iff.mp hfind bucket hbucket
    exact absurd hid (by simpa using List.any_eq_false.mp hany entry hentry)
  | some symbol =>
    obtain ⟨hlt, hany, -⟩ := List.findIdx?_eq_some_iff_getElem.mp hfind
    refine ⟨symbol, ?_, ?_⟩
    · rw [bucket_eq_get (by simpa using hlt)]
      simpa using hany
    · unfold remove
      rw [run_bind, run_checkStopped]
      simp only [hrun, Bool.false_eq_true, if_false, run_bind, run_get, hfind]
      rfl

theorem run_removeUser (moment : Moment) (symbol : Nat) (s : Scheduler) :
    (removeUser moment symbol).run s =
      match s.userId? moment symbol with
      | none => (.error (.noCallback moment symbol), s)
      | some id => (discard (remove id)).run s := by
  unfold removeUser
  rw [run_bind, run_get]
  cases huser : s.userId? moment symbol with
  | none =>
    simp only [huser]
    rfl
  | some id => simp only [huser]

end Step

/-! ## Consistency -/

/-- The records of a registry fit together. -/
structure Consistent (s : Scheduler) : Prop where
  table_eq : s.table = .derive s.budget s.table.mu
  ids_nodup : (s.live.map Callback.id).Nodup
  ids_lt : ∀ entry ∈ s.live, entry.id < s.nextId
  keys_nodup : (s.users.map UserEntry.key).Nodup
  /-- The users are the callbacks of applications. -/
  mem_users : ∀ u, u ∈ s.users ↔
    ∃ entry ∈ s.bucket u.symbol, entry.kind = .user u.moment ∧ entry.id = u.id

theorem userId?_eq_none_iff :
    s.userId? moment symbol = none ↔ ∀ u ∈ s.users, u.key ≠ (moment, symbol) := by
  simp [userId?, UserEntry.key]

theorem exists_of_userId? (h : s.userId? moment symbol = some id) :
    (⟨moment, symbol, id⟩ : UserEntry) ∈ s.users := by
  obtain ⟨⟨m, k, i⟩, hfind, rfl⟩ := Option.map_eq_some_iff.mp h
  have hkey := List.find?_some hfind
  simp only [decide_eq_true_eq] at hkey
  obtain ⟨rfl, rfl⟩ := hkey
  exact List.mem_of_find?_eq_some hfind

/-- A number is that of one callback, and this one fires on one symbol. -/
theorem bucket_unique (h : (s.live.map Callback.id).Nodup) {e e' : Callback}
    (he : e ∈ s.bucket symbol) (he' : e' ∈ s.bucket other) (hid : e.id = e'.id) :
    symbol = other ∧ e = e' := by
  refine ⟨?_, List.inj_on_of_nodup_map h (mem_live.mpr ⟨_, he⟩) (mem_live.mpr ⟨_, he'⟩) hid⟩
  by_contra hne
  obtain ⟨others, hperm, hset⟩ := s.exists_live_perm (lt_of_mem_bucket he)
  have hothers : e' ∈ others := by
    have hmem : e' ∈ (s.setBucket symbol []).bucket other := by
      rwa [bucket_setBucket_of_ne hne]
    simpa using (hset []).mem_iff.mp (mem_live.mpr ⟨_, hmem⟩)
  have hdisjoint := (hperm.map Callback.id).nodup_iff.mp h
  rw [List.map_append, List.nodup_append] at hdisjoint
  exact hdisjoint.2.2 _ (List.mem_map_of_mem he) _ (List.mem_map_of_mem hothers) hid

/-- Among callbacks with different numbers, the first of a number is the only one. -/
theorem eraseP_eq_filter {entries : List Callback} (h : (entries.map Callback.id).Nodup)
    (id : Nat) : entries.eraseP (·.id = id) = entries.filter (·.id ≠ id) := by
  induction entries with
  | nil => rfl
  | cons entry rest ih =>
    rw [List.map_cons, List.nodup_cons] at h
    by_cases hid : entry.id = id
    · have hrest : ∀ other ∈ rest, other.id ≠ id := by
        intro other hmem heq
        exact h.1 (List.mem_map.mpr ⟨other, hmem, heq.trans hid.symm⟩)
      simpa [hid] using (List.filter_eq_self.mpr (by simpa using hrest)).symm
    · simp [hid, ih h.2]

namespace Consistent

theorem create (mu : Numerology) (budget : DelayBudget) : Consistent (create mu budget) where
  table_eq := rfl
  ids_nodup := by simp [Scheduler.create, live]
  ids_lt := by simp [Scheduler.create, live]
  keys_nodup := by simp [Scheduler.create]
  mem_users := by
    intro u
    rw [bucket_create]
    simp [Scheduler.create]

/-- Only the callbacks, the users and the next number matter. -/
theorem congr (h : Consistent s) (htable : t.table = s.table) (hbudget : t.budget = s.budget)
    (hbuckets : t.buckets = s.buckets) (husers : t.users = s.users)
    (hnext : t.nextId = s.nextId) : Consistent t := by
  have hlive : t.live = s.live := congrArg (fun b => b.toList.flatten) hbuckets
  have hbucket (symbol : Nat) : t.bucket symbol = s.bucket symbol := by
    rw [bucket, hbuckets, bucket]
  refine ⟨?_, ?_, ?_, ?_, ?_⟩
  · rw [htable, hbudget]
    exact h.table_eq
  · rw [hlive]
    exact h.ids_nodup
  · rw [hlive, hnext]
    exact h.ids_lt
  · rw [husers]
    exact h.keys_nodup
  · intro u
    rw [husers, hbucket]
    exact h.mem_users u

/-- Numbers stay different when the next one is given to a new callback. -/
theorem fresh (h : Consistent s) : ((s.nextId :: s.live.map Callback.id)).Nodup := by
  refine List.nodup_cons.mpr ⟨?_, h.ids_nodup⟩
  intro hmem
  obtain ⟨entry, hentry, hid⟩ := List.mem_map.mp hmem
  exact (h.ids_lt entry hentry).ne hid

theorem withCallback (h : Consistent s) {offset : SymbolOffset}
    (hsymbol : offset.symbol < symbolsPerSlot) {kind : CallbackKind}
    (hkind : ∀ moment, kind ≠ .user moment) (job : JobKind) (part parts : Nat) :
    Consistent (s.withCallback offset kind job part parts) := by
  have hlive := live_withCallback s hsymbol kind job part parts
  refine ⟨h.table_eq, ?_, ?_, h.keys_nodup, ?_⟩
  · exact (hlive.map Callback.id).nodup_iff.mpr h.fresh
  · intro entry hentry
    rcases List.mem_cons.mp (hlive.mem_iff.mp hentry) with rfl | hmem
    · exact Nat.lt_succ_self _
    · exact Nat.lt_succ_of_lt (h.ids_lt entry hmem)
  · intro u
    rw [show u ∈ (s.withCallback offset kind job part parts).users ↔ u ∈ s.users from Iff.rfl,
      h.mem_users u, bucket_withCallback s hsymbol]
    constructor
    · rintro ⟨entry, hmem, hentry⟩
      exact ⟨entry, List.mem_append_left _ hmem, hentry⟩
    · rintro ⟨entry, hmem, hentry⟩
      rcases List.mem_append.mp hmem with hold | hnew
      · exact ⟨entry, hold, hentry⟩
      · split_ifs at hnew with hsym
        · obtain rfl := List.mem_singleton.mp hnew
          exact absurd hentry.1 (hkind _)
        · cases hnew

theorem withDeadlines (h : Consistent s) {ds : List Deadline} (hds : ∀ d ∈ ds, d.Sound) :
    Consistent (s.withDeadlines ds) := by
  induction ds generalizing s with
  | nil => exact h
  | cons d ds ih =>
    obtain ⟨hd, hds⟩ := List.forall_mem_cons.mp hds
    exact ih (h.withCallback hd.symbol_lt hd.kind_ne d.job d.part d.parts) hds

theorem withUser (h : Consistent s) {offset : SymbolOffset}
    (hsymbol : offset.symbol < symbolsPerSlot) (hfree : s.userId? moment offset.symbol = none) :
    Consistent (s.withUser moment offset) := by
  have hlive : (s.withUser moment offset).live.Perm _ :=
    live_withCallback s hsymbol (.user moment) .application 0 1
  refine ⟨h.table_eq, ?_, ?_, ?_, ?_⟩
  · exact (hlive.map Callback.id).nodup_iff.mpr h.fresh
  · intro entry hentry
    rcases List.mem_cons.mp (hlive.mem_iff.mp hentry) with rfl | hmem
    · exact Nat.lt_succ_self _
    · exact Nat.lt_succ_of_lt (h.ids_lt entry hmem)
  · refine (List.perm_append_comm.map UserEntry.key).nodup_iff.mpr ?_
    refine List.nodup_cons.mpr ⟨?_, h.keys_nodup⟩
    intro hmem
    obtain ⟨u, hu, hkey⟩ := List.mem_map.mp hmem
    exact userId?_eq_none_iff.mp hfree u hu hkey
  · intro u
    rw [bucket_withUser s moment hsymbol]
    simp only [Scheduler.withUser, List.mem_append, List.mem_singleton]
    constructor
    · rintro (hu | rfl)
      · obtain ⟨entry, hmem, hentry⟩ := (h.mem_users u).mp hu
        exact ⟨entry, .inl hmem, hentry⟩
      · exact ⟨_, .inr (by rw [if_pos rfl]; exact List.mem_singleton.mpr rfl), rfl, rfl⟩
    · rintro ⟨entry, hold | hnew, hentry⟩
      · exact .inl ((h.mem_users u).mpr ⟨entry, hold, hentry⟩)
      · split_ifs at hnew with hsym
        · obtain rfl := List.mem_singleton.mp hnew
          obtain ⟨hkind, hid⟩ := hentry
          obtain ⟨m, k, i⟩ := u
          cases hkind
          cases hid
          cases hsym
          exact .inr rfl
        · cases hnew

/-- Without a callback, every symbol keeps its others. -/
theorem bucket_without (h : Consistent s) (hid : ∃ entry ∈ s.bucket symbol, entry.id = id)
    (other : Nat) : (s.without symbol id).bucket other = (s.bucket other).filter (·.id ≠ id) := by
  obtain ⟨entry, hmem, hid⟩ := hid
  by_cases heq : symbol = other
  · subst heq
    rw [← eraseP_eq_filter]
    · exact bucket_setBucket_self (lt_of_mem_bucket hmem) _
    · obtain ⟨others, hperm, -⟩ := s.exists_live_perm (lt_of_mem_bucket hmem)
      have hnodup := (hperm.map Callback.id).nodup_iff.mp h.ids_nodup
      rw [List.map_append] at hnodup
      exact (List.nodup_append.mp hnodup).1
  · refine (bucket_setBucket_of_ne heq _).trans (List.filter_eq_self.mpr ?_).symm
    intro e he
    simp only [decide_not, Bool.not_eq_eq_eq_not, Bool.not_true, decide_eq_false_iff_not]
    intro hide
    exact heq (bucket_unique h.ids_nodup hmem he (hid.trans hide.symm)).1

theorem mem_live_without (h : Consistent s) (hid : ∃ entry ∈ s.bucket symbol, entry.id = id) :
    entry ∈ (s.without symbol id).live ↔ entry ∈ s.live ∧ entry.id ≠ id := by
  simp only [mem_live, h.bucket_without hid, List.mem_filter, decide_eq_true_eq,
    exists_and_right]

theorem without (h : Consistent s) (hid : ∃ entry ∈ s.bucket symbol, entry.id = id) :
    Consistent (s.without symbol id) := by
  refine ⟨h.table_eq, ?_, ?_, ?_, ?_⟩
  · obtain ⟨entry, hmem, -⟩ := hid
    obtain ⟨others, hperm, hset⟩ := s.exists_live_perm (lt_of_mem_bucket hmem)
    have hsub := (List.eraseP_sublist (p := (·.id = id)) (l := s.bucket symbol)).append
      (List.Sublist.refl others)
    have hnodup := (hperm.map Callback.id).nodup_iff.mp h.ids_nodup
    exact ((hset _).map Callback.id).nodup_iff.mpr (hnodup.sublist (hsub.map _))
  · intro entry hentry
    exact h.ids_lt entry ((h.mem_live_without hid).mp hentry).1
  · exact h.keys_nodup.sublist ((List.filter_sublist).map _)
  · intro u
    rw [h.bucket_without hid]
    simp only [Scheduler.without, List.mem_filter, h.mem_users u, decide_eq_true_eq]
    constructor
    · rintro ⟨⟨entry, hmem, hkind, hu⟩, hne⟩
      exact ⟨entry, ⟨hmem, hu ▸ hne⟩, hkind, hu⟩
    · rintro ⟨entry, ⟨hmem, hne⟩, hkind, hu⟩
      exact ⟨⟨entry, hmem, hkind, hu⟩, hu ▸ hne⟩

theorem clear (h : Consistent s) : Consistent s.clear.2 where
  table_eq := h.table_eq
  ids_nodup := by simp [Scheduler.clear, live]
  ids_lt := by simp [Scheduler.clear, live]
  keys_nodup := by simp [Scheduler.clear]
  mem_users := by
    intro u
    have hbucket : s.clear.2.bucket u.symbol = [] :=
      bucket_create s.table.mu s.budget
    rw [hbucket]
    simp [Scheduler.clear]

end Consistent

/-! ## Whole runs -/

/-- What can be done to a registry beside ticks. -/
inductive RegistryChange where
  | createCallbacks (mode : DlMode) (role : Role) (handled : Handled)
  | register (moment : Moment) (symbol : Nat)
  | remove (id : Nat)
  | removeUser (moment : Moment) (symbol : Nat)
  | clear
  | start
  | stop

/-- The step of a change, without its answer. -/
def RegistryChange.step : RegistryChange → Step Unit
  | createCallbacks mode role handled => Step.createCallbacks mode role handled
  | register moment symbol => discard (Step.register moment symbol)
  | remove id => discard (Step.remove id)
  | removeUser moment symbol => Step.removeUser moment symbol
  | clear => modify fun s => s.clear.2
  | start => Step.start
  | stop => modify fun s => s.stop.2

/-- The registries that a registry can turn into by changes, failed ones included, and by ticks. -/
inductive Reaches (s : Scheduler) : Scheduler → Prop
  | refl : Reaches s s
  | change {t : Scheduler} (c : RegistryChange) : Reaches s t → Reaches s (c.step.run t).2
  | tick {t : Scheduler} {σ : Type} (dispatch : Dispatcher σ) (time : AirTime) (memory : σ) :
      Reaches s t → Reaches s ((t.tick dispatch time).run memory).1.2

/-- What a change or a tick makes of a registry. -/
inductive Effect (s : Scheduler) : Scheduler → Prop
  | same : Effect s s
  | state (state : RunState) : Effect s { s with state }
  | counts (counts : TickCounts) : Effect s { s with counts }
  | deadlines {ds : List Deadline} (h : ∀ d ∈ ds, d.Sound) : Effect s (s.withDeadlines ds)
  | user {moment : Moment} {offset : SymbolOffset} (hsymbol : offset.symbol < symbolsPerSlot)
      (hfree : s.userId? moment offset.symbol = none) : Effect s (s.withUser moment offset)
  | without {symbol id : Nat} (h : ∃ entry ∈ s.bucket symbol, entry.id = id) :
      Effect s (s.without symbol id)
  | clear : Effect s s.clear.2

theorem Step.run_discard {α : Type} (x : Step α) (s : Scheduler) :
    (discard x).run s = ((x.run s).1.map fun _ => (), (x.run s).2) :=
  run_map _ x s

theorem effect_remove (id : Nat) (s : Scheduler) : Effect s ((Step.remove id).run s).2 := by
  cases hrun : s.isRunning with
  | true =>
    rw [Step.run_remove_of_running hrun]
    exact .same
  | false =>
    by_cases hlive : ∃ entry ∈ s.live, entry.id = id
    · obtain ⟨symbol, hmem, hremove⟩ := Step.run_remove_of_live hrun hlive
      rw [hremove]
      exact .without hmem
    · push Not at hlive
      rw [Step.run_remove_of_not_live hrun hlive]
      exact .same

theorem RegistryChange.effect (c : RegistryChange) (h : s.table = .derive s.budget s.table.mu) :
    Effect s (c.step.run s).2 := by
  cases c with
  | createCallbacks mode role handled =>
    simp only [step, Step.run_createCallbacks]
    split_ifs
    · exact .same
    · exact .same
    · refine .deadlines fun d hd => ?_
      rw [h] at hd
      exact sound_deadlines _ _ mode role handled hd
  | register moment symbol =>
    simp only [step, Step.run_discard, Step.run_register]
    split_ifs with hrun hsymbol htaken
    · exact .same
    · exact .same
    · exact .same
    · exact .user (SymbolOffset.symbol_ofPosition_lt _) (by simpa using htaken)
  | remove id =>
    simp only [step, Step.run_discard]
    exact effect_remove id s
  | removeUser moment symbol =>
    simp only [step, Step.run_removeUser]
    cases s.userId? moment symbol with
    | none => exact .same
    | some id =>
      simp only [Step.run_discard]
      exact effect_remove id s
  | clear => exact .clear
  | start =>
    simp only [step, Step.run_start]
    exact .state .running
  | stop => exact .state .stopped

theorem effect_tick {σ : Type} (s : Scheduler) (dispatch : Dispatcher σ) (time : AirTime)
    (memory : σ) : Effect s ((s.tick dispatch time).run memory).1.2 := by
  unfold tick
  cases s.isRunning with
  | true => exact .counts _
  | false => exact .counts _

/-- A change that fails leaves the registry as it was. -/
theorem RegistryChange.eq_of_error {c : RegistryChange} {e : Error}
    (h : c.step.run s = (.error e, t)) : t = s := by
  have hremove {id : Nat} (h : (discard (Step.remove id)).run s = (.error e, t)) : t = s := by
    rw [Step.run_discard] at h
    cases hrun : s.isRunning with
    | true =>
      rw [Step.run_remove_of_running hrun] at h
      exact (Prod.mk.inj h).2.symm
    | false =>
      by_cases hlive : ∃ entry ∈ s.live, entry.id = id
      · obtain ⟨symbol, -, hremove⟩ := Step.run_remove_of_live hrun hlive
        rw [hremove] at h
        cases h
      · push Not at hlive
        rw [Step.run_remove_of_not_live hrun hlive] at h
        cases h
  cases c with
  | createCallbacks mode role handled =>
    simp only [step, Step.run_createCallbacks] at h
    split_ifs at h <;> cases h <;> rfl
  | register moment symbol =>
    simp only [step, Step.run_discard, Step.run_register] at h
    split_ifs at h <;> cases h <;> rfl
  | remove id => exact hremove h
  | removeUser moment symbol =>
    simp only [step, Step.run_removeUser] at h
    cases huser : s.userId? moment symbol with
    | none =>
      simp only [huser] at h
      cases h
      rfl
    | some id =>
      simp only [huser] at h
      exact hremove h
  | clear => cases h
  | start =>
    simp only [step, Step.run_start] at h
    split_ifs at h with hrun
    · -- an interface that is started twice was running already
      obtain rfl := (Prod.mk.inj h).2
      have hstate : s.state = .running := by simpa [isRunning] using hrun
      rw [← hstate]
    · cases h
  | stop => cases h

theorem Effect.consistent (h : Effect s t) (hs : Consistent s) : Consistent t := by
  cases h with
  | same => exact hs
  | state state => exact hs.congr rfl rfl rfl rfl rfl
  | counts counts => exact hs.congr rfl rfl rfl rfl rfl
  | deadlines hds => exact hs.withDeadlines hds
  | user hsymbol hfree => exact hs.withUser hsymbol hfree
  | without h => exact hs.without h
  | clear => exact hs.clear

/-- What every effect on a consistent registry keeps is kept for good. -/
theorem Reaches.keeps {P : Scheduler → Prop} (h : Reaches s t) (hs : Consistent s) (hP : P s)
    (hkeeps : ∀ {t u}, Effect t u → Consistent t → P t → P u) : Consistent t ∧ P t := by
  induction h with
  | refl => exact ⟨hs, hP⟩
  | change c _ ih =>
    have heffect := c.effect ih.1.table_eq
    exact ⟨heffect.consistent ih.1, hkeeps heffect ih.1 ih.2⟩
  | @tick t σ dispatch time memory _ ih =>
    have heffect := effect_tick t dispatch time memory
    exact ⟨heffect.consistent ih.1, hkeeps heffect ih.1 ih.2⟩

theorem Reaches.consistent (h : Reaches s t) (hs : Consistent s) : Consistent t :=
  (h.keeps (P := fun _ => True) hs trivial fun _ _ _ => trivial).1

/-- The delays and the deadlines stay those that a registry started with. -/
lemma Effect.settings_eq (h : Effect s t) : t.budget = s.budget ∧ t.table = s.table := by
  cases h with
  | deadlines hds => exact ⟨budget_withDeadlines s _, table_withDeadlines s _⟩
  | same | state state | counts counts | user hsymbol hfree | without h | clear =>
    exact ⟨rfl, rfl⟩

lemma Effect.nextId_le (h : Effect s t) : s.nextId ≤ t.nextId := by
  cases h with
  | deadlines hds =>
    rw [nextId_withDeadlines]
    exact Nat.le_add_right _ _
  | user hsymbol hfree => exact Nat.le_succ _
  | same | state state | counts counts | without h | clear => exact le_rfl

/-- A callback whose number had been given before was on its symbol before. -/
lemma Effect.mem_bucket (h : Effect s t) (hs : Consistent s) (hmem : entry ∈ t.bucket symbol)
    (hlt : entry.id < s.nextId) : entry ∈ s.bucket symbol := by
  cases h with
  | same => exact hmem
  | state state => exact hmem
  | counts counts => exact hmem
  | deadlines hds =>
    rw [bucket_withDeadlines s fun d hd => (hds d hd).symbol_lt, List.mem_append] at hmem
    refine hmem.resolve_right fun hnew => ?_
    obtain ⟨x, hx, rfl⟩ := List.mem_map.mp hnew
    have hle : s.nextId ≤ x.2 := List.le_snd_of_mem_zipIdx (List.mem_filter.mp hx).1
    exact hle.not_gt hlt
  | user hsymbol hfree =>
    rw [bucket_withUser s _ hsymbol, List.mem_append] at hmem
    refine hmem.resolve_right fun hnew => ?_
    split_ifs at hnew
    · rw [List.mem_singleton.mp hnew] at hlt
      exact lt_irrefl _ hlt
    · cases hnew
  | without hid =>
    rw [hs.bucket_without hid] at hmem
    exact (List.mem_filter.mp hmem).1
  | clear =>
    have hnone : s.clear.2.bucket symbol = [] := bucket_create s.table.mu s.budget
    rw [hnone] at hmem
    cases hmem

lemma Reaches.settings_eq (h : Reaches s t) (hs : Consistent s) :
    t.budget = s.budget ∧ t.table = s.table := by
  refine (h.keeps (P := fun u => u.budget = s.budget ∧ u.table = s.table) hs ⟨rfl, rfl⟩ ?_).2
  intro t u heffect _ ht
  exact ⟨heffect.settings_eq.1.trans ht.1, heffect.settings_eq.2.trans ht.2⟩

/-- A registry in which no number of an earlier one is given anew. -/
structure Later (s t : Scheduler) : Prop where
  nextId_le : s.nextId ≤ t.nextId
  mem_live : ∀ entry ∈ t.live, entry.id < s.nextId → entry ∈ s.live

namespace Later

theorem refl (s : Scheduler) : Later s s :=
  ⟨le_rfl, fun _ h _ => h⟩

theorem trans {u : Scheduler} (hst : Later s t) (htu : Later t u) : Later s u where
  nextId_le := hst.nextId_le.trans htu.nextId_le
  mem_live := by
    intro entry hentry hlt
    exact hst.mem_live entry (htu.mem_live entry hentry (hlt.trans_le hst.nextId_le)) hlt

end Later

theorem Effect.later (h : Effect s t) (hs : Consistent s) : Later s t where
  nextId_le := h.nextId_le
  mem_live := by
    intro entry hentry hlt
    obtain ⟨symbol, hmem⟩ := Scheduler.mem_live.mp hentry
    exact Scheduler.mem_live.mpr ⟨symbol, h.mem_bucket hs hmem hlt⟩

theorem Reaches.later (h : Reaches s t) (hs : Consistent s) : Later s t :=
  (h.keeps hs (.refl s) fun heffect ht hlater => hlater.trans (heffect.later ht)).2

/-- A callback never moves to another symbol. -/
lemma Reaches.mem_bucket (h : Reaches s t) (hs : Consistent s) (hmem : entry ∈ t.bucket symbol)
    (hlt : entry.id < s.nextId) : entry ∈ s.bucket symbol := by
  refine (h.keeps (P := fun u => Later s u ∧ (entry ∈ u.bucket symbol → entry ∈ s.bucket symbol)) hs
    ⟨.refl s, id⟩ ?_).2.2 hmem
  intro t u heffect ht hold
  refine ⟨hold.1.trans (heffect.later ht), fun hmem => hold.2 ?_⟩
  exact heffect.mem_bucket ht hmem (hlt.trans_le hold.1.nextId_le)

/-! ## Answers -/

/-- The callback of an application for a moment on a symbol is the one that the users name. -/
theorem Consistent.ids_eq (h : Consistent s) (moment : Moment) (symbol : Nat) :
    ((s.bucket symbol).filter (·.kind = .user moment)).map Callback.id =
      (s.userId? moment symbol).toList := by
  have hnodup : (((s.bucket symbol).filter (·.kind = .user moment)).map Callback.id).Nodup := by
    by_cases hlt : symbol < 14
    · obtain ⟨others, hperm, -⟩ := s.exists_live_perm hlt
      have hids := (hperm.map Callback.id).nodup_iff.mp h.ids_nodup
      rw [List.map_append] at hids
      exact (List.nodup_append.mp hids).1.sublist (List.filter_sublist.map _)
    · rw [bucket_of_le (Nat.le_of_not_lt hlt)]
      exact List.nodup_nil
  have hmem (id : Nat) : id ∈ ((s.bucket symbol).filter (·.kind = .user moment)).map Callback.id ↔
      (⟨moment, symbol, id⟩ : UserEntry) ∈ s.users := by
    rw [h.mem_users]
    simp only [List.mem_map, List.mem_filter, decide_eq_true_eq, and_assoc]
  cases hid : s.userId? moment symbol with
  | none =>
    rw [Option.toList_none, List.eq_nil_iff_forall_not_mem]
    intro id hmem'
    exact userId?_eq_none_iff.mp hid _ ((hmem id).mp hmem') rfl
  | some id =>
    refine List.perm_singleton.mp ((List.perm_ext_iff_of_nodup hnodup
      (List.nodup_singleton id)).mpr ?_)
    intro id'
    rw [hmem, List.mem_singleton]
    have huser := exists_of_userId? hid
    constructor
    · intro hmem'
      exact congrArg UserEntry.id (List.inj_on_of_nodup_map h.keys_nodup hmem' huser rfl)
    · rintro rfl
      exact huser

theorem Consistent.taken_iff (h : Consistent s) :
    (s.userId? moment symbol).isSome ↔ ∃ entry ∈ s.bucket symbol, entry.kind = .user moment := by
  have hids := h.ids_eq moment symbol
  constructor
  · intro hsome
    obtain ⟨id, hid⟩ := Option.isSome_iff_exists.mp hsome
    obtain ⟨entry, hmem, hkind, -⟩ := (h.mem_users _).mp (exists_of_userId? hid)
    exact ⟨entry, hmem, hkind⟩
  · rintro ⟨entry, hmem, hkind⟩
    by_contra hnone
    rw [Option.not_isSome_iff_eq_none.mp hnone] at hids
    have hempty := List.map_eq_nil_iff.mp hids
    exact List.not_mem_nil (hempty ▸ List.mem_filter.mpr ⟨hmem, decide_eq_true hkind⟩)

theorem Step.register_resource_iff (moment : Moment) (symbol : Nat) (s : Scheduler) :
    (∃ e t, (Step.register moment symbol).run s = (.error e, t) ∧ e.kind = .resource) ↔
      s.isRunning = false ∧ symbol < symbolsPerSlot ∧
        (s.userId? moment (s.momentOffset moment symbol).symbol).isSome := by
  rw [Step.run_register]
  split_ifs with hrun hsymbol htaken
  · constructor
    · rintro ⟨e, t, h, hkind⟩
      cases h
      cases hkind
    · rintro ⟨hstopped, -⟩
      exact absurd hrun (by simp [hstopped])
  · constructor
    · rintro ⟨e, t, h, hkind⟩
      cases h
      cases hkind
    · rintro ⟨-, hlt, -⟩
      exact absurd hlt (Nat.not_lt_of_le hsymbol)
  · constructor
    · intro _
      exact ⟨by simpa using hrun, Nat.lt_of_not_le hsymbol, htaken⟩
    · intro _
      exact ⟨_, _, rfl, rfl⟩
  · constructor
    · rintro ⟨e, t, h, -⟩
      cases h
    · rintro ⟨-, -, hsome⟩
      exact absurd hsome htaken

/-- A callback is removed when it is registered and the interface does not run. -/
theorem Step.run_remove_eq_true (h : (Step.remove id).run s = (.ok true, t)) :
    s.isRunning = false ∧ ∃ symbol, (∃ entry ∈ s.bucket symbol, entry.id = id) ∧
      t = s.without symbol id := by
  cases hrun : s.isRunning with
  | true =>
    rw [Step.run_remove_of_running hrun] at h
    cases h
  | false =>
    by_cases hlive : ∃ entry ∈ s.live, entry.id = id
    · obtain ⟨symbol, hmem, hremove⟩ := Step.run_remove_of_live hrun hlive
      rw [hremove] at h
      exact ⟨rfl, symbol, hmem, (Prod.mk.inj h).2.symm⟩
    · push Not at hlive
      rw [Step.run_remove_of_not_live hrun hlive] at h
      cases h

theorem Step.remove_true_iff (id : Nat) (s : Scheduler) :
    (∃ t, (Step.remove id).run s = (.ok true, t)) ↔
      s.isRunning = false ∧ ∃ entry ∈ s.live, entry.id = id := by
  constructor
  · rintro ⟨t, h⟩
    obtain ⟨hrun, symbol, ⟨entry, hmem, hid⟩, -⟩ := Step.run_remove_eq_true h
    exact ⟨hrun, entry, mem_live.mpr ⟨symbol, hmem⟩, hid⟩
  · rintro ⟨hrun, hlive⟩
    obtain ⟨symbol, -, hremove⟩ := Step.run_remove_of_live hrun hlive
    exact ⟨_, hremove⟩

/-- The moment and the symbol of a removed callback are free. -/
theorem Consistent.free_of_remove (h : Consistent s) (huser : s.userId? moment symbol = some id)
    (hremove : (Step.remove id).run s = (.ok true, t)) : t.userId? moment symbol = none := by
  obtain ⟨-, other, -, rfl⟩ := Step.run_remove_eq_true hremove
  rw [userId?_eq_none_iff]
  intro u hu hkey
  obtain ⟨hu, hne⟩ := List.mem_filter.mp hu
  have hids := List.inj_on_of_nodup_map h.keys_nodup hu (exists_of_userId? huser) hkey
  subst hids
  simp at hne

/-- The step that removes the callback of an application removes it by its number. -/
theorem Consistent.removeUser_eq_ok (hs : Consistent s)
    (h : (Step.removeUser moment symbol).run s = (.ok (), t)) :
    ∃ id, s.userId? moment symbol = some id ∧ (Step.remove id).run s = (.ok true, t) := by
  rw [Step.run_removeUser] at h
  cases huser : s.userId? moment symbol with
  | none =>
    rw [huser] at h
    cases h
  | some id =>
    rw [huser] at h
    simp only [Step.run_discard] at h
    refine ⟨id, rfl, ?_⟩
    cases hrun : s.isRunning with
    | true =>
      rw [Step.run_remove_of_running hrun] at h
      cases h
    | false =>
      obtain ⟨entry, hmem, -, hid⟩ := (hs.mem_users _).mp (exists_of_userId? huser)
      obtain ⟨symbol', -, hremove⟩ :=
        Step.run_remove_of_live hrun ⟨entry, mem_live.mpr ⟨_, hmem⟩, hid⟩
      rw [hremove] at h
      exact hremove.trans (congrArg (Prod.mk _) (Prod.mk.inj h).2)

/-- What the users of a registry can rely on. -/
structure Reliable (s : Scheduler) : Prop where
  ids_nodup : (s.live.map Callback.id).Nodup
  ids_lt : ∀ entry ∈ s.live, entry.id < s.nextId
  keys_nodup : (s.users.map UserEntry.key).Nodup
  /-- On each symbol there is at most one callback for a moment, and it is the one that the users
  name. -/
  ids_eq : ∀ moment symbol,
    ((s.bucket symbol).filter (·.kind = .user moment)).map Callback.id =
      (s.userId? moment symbol).toList
  /-- A registration is refused for want of a free place when the place is taken. -/
  register_resource : ∀ moment symbol,
    (∃ e t, (Step.register moment symbol).run s = (.error e, t) ∧ e.kind = .resource) ↔
      s.isRunning = false ∧ symbol < symbolsPerSlot ∧
        ∃ entry ∈ s.bucket (s.momentOffset moment symbol).symbol, entry.kind = .user moment
  /-- A registration succeeds when the place is free. -/
  register_ok : ∀ moment symbol, s.isRunning = false → symbol < symbolsPerSlot →
    (∀ entry ∈ s.bucket (s.momentOffset moment symbol).symbol, entry.kind ≠ .user moment) →
      ∃ t, (Step.register moment symbol).run s = (.ok (s.momentOffset moment symbol).symbol, t)
  remove_true : ∀ id, (∃ t, (Step.remove id).run s = (.ok true, t)) ↔
    s.isRunning = false ∧ ∃ entry ∈ s.live, entry.id = id
  /-- A number that was removed is never removed again. -/
  remove_once : ∀ id t u, (Step.remove id).run s = (.ok true, t) → Reaches t u →
    ∀ v, (Step.remove id).run u ≠ (.ok true, v)
  /-- What was removed, by its number or by its place, can be registered again. -/
  register_again : ∀ moment symbol t,
    ((Step.removeUser moment (s.momentOffset moment symbol).symbol).run s = (.ok (), t) ∨
      ∃ id, s.userId? moment (s.momentOffset moment symbol).symbol = some id ∧
        (Step.remove id).run s = (.ok true, t)) →
    symbol < symbolsPerSlot →
      ∃ u, (Step.register moment symbol).run t = (.ok (s.momentOffset moment symbol).symbol, u)
  clear_eq : s.clear.1 = s.live.length ∧ s.clear.2.live = [] ∧ s.clear.2.users = []
  /-- A change that fails leaves the registry as it was. -/
  eq_of_error : ∀ (c : RegistryChange) e t, c.step.run s = (.error e, t) → t = s

theorem Step.register_of_free (hrun : s.isRunning = false) (hsymbol : symbol < symbolsPerSlot)
    (hfree : s.userId? moment (s.momentOffset moment symbol).symbol = none) :
    ∃ t, (Step.register moment symbol).run s = (.ok (s.momentOffset moment symbol).symbol, t) := by
  rw [Step.run_register]
  simp [hrun, Nat.not_le_of_lt hsymbol, hfree]

theorem Consistent.reliable (h : Consistent s) : Reliable s where
  ids_nodup := h.ids_nodup
  ids_lt := h.ids_lt
  keys_nodup := h.keys_nodup
  ids_eq := h.ids_eq
  register_resource := by
    intro moment symbol
    rw [Step.register_resource_iff, h.taken_iff]
  register_ok := by
    intro moment symbol hrun hsymbol hfree
    refine Step.register_of_free hrun hsymbol (Option.not_isSome_iff_eq_none.mp ?_)
    rw [h.taken_iff]
    push Not
    exact hfree
  remove_true := fun id => Step.remove_true_iff id s
  remove_once := by
    intro id t u hremove hreach v hagain
    obtain ⟨-, symbol, hmem, rfl⟩ := Step.run_remove_eq_true hremove
    obtain ⟨-, other, ⟨entry, hentry, hid⟩, -⟩ := Step.run_remove_eq_true hagain
    have hlater := hreach.later (h.without hmem)
    obtain ⟨removed, hremoved, hid'⟩ := hmem
    -- the number was given before, so that it belongs to a callback of the time of the removal
    have hlt : entry.id < s.nextId := by
      rw [hid, ← hid']
      exact h.ids_lt removed (mem_live.mpr ⟨symbol, hremoved⟩)
    have hold := hlater.mem_live entry (mem_live.mpr ⟨other, hentry⟩) hlt
    exact ((h.mem_live_without ⟨removed, hremoved, hid'⟩).mp hold).2 hid
  register_again := by
    intro moment symbol t hremoved hsymbol
    obtain ⟨id, huser, hremove⟩ : ∃ id,
        s.userId? moment (s.momentOffset moment symbol).symbol = some id ∧
          (Step.remove id).run s = (.ok true, t) :=
      hremoved.elim h.removeUser_eq_ok id
    have hfree := h.free_of_remove huser hremove
    obtain ⟨hrun, other, hmem, rfl⟩ := Step.run_remove_eq_true hremove
    exact Step.register_of_free hrun hsymbol hfree
  clear_eq := ⟨length_live.symm, by simp [Scheduler.clear, live], rfl⟩
  eq_of_error := fun _ _ _ herror => RegistryChange.eq_of_error herror

/-- A registry that started empty is reliable after any changes and ticks. -/
theorem reliable_of_reaches {mu : Numerology} {budget : DelayBudget}
    (h : Reaches (create mu budget) s) : Reliable s :=
  (h.consistent (.create mu budget)).reliable

/-- A registry after changes, failed ones included. -/
def afterChanges (s : Scheduler) (changes : List RegistryChange) : Scheduler :=
  changes.foldl (fun t c => (c.step.run t).2) s

lemma Reaches.changes (h : Reaches s t) (changes : List RegistryChange) :
    Reaches s (t.afterChanges changes) := by
  induction changes generalizing t with
  | nil => exact h
  | cons c changes ih => exact ih (.change c h)

namespace UsedRegistry

/-- The deadlines of a distributed unit and callbacks of applications; two of them are removed, and
one of these is registered again.  Two changes fail, for a taken place and for a running interface. -/
def changes : List RegistryChange :=
  [.createCallbacks .spread .distributedUnit
      { dlControl := true, ulControl := true, ulArrival := true },
    .register .onAir 0, .register .receiveWindowEnd 3, .register .onAir 0, .remove 2,
    .start, .remove 9, .stop, .removeUser .onAir 0, .register .onAir 0]

/-- The registry after the changes. -/
def used : Scheduler :=
  (create .khz30 {}).afterChanges changes

end UsedRegistry

open UsedRegistry in
/-- The numbers two and eight are gone, and the place of the latter is taken anew. -/
theorem reliable_of_reaches_used :
    Reaches (create .khz30 {}) used ∧ used.live.map Callback.id = [10, 0, 5, 1, 6, 3, 4, 9, 7] ∧
      used.users = [⟨.receiveWindowEnd, 6, 9⟩, ⟨.onAir, 0, 10⟩] ∧ Reliable used := by
  have hreach : Reaches (create .khz30 {}) used := Reaches.refl.changes changes
  exact ⟨hreach, by decide +kernel, by decide +kernel, reliable_of_reaches hreach⟩

end Scheduler

end OpenFronthaul
