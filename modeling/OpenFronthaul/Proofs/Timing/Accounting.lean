import OpenFronthaul.Proofs.Timing.Registry
import OpenFronthaul.Proofs.Timing.Ticks

/-!
# The accounts of a scheduler

The registry of a scheduler changes, the interface starts and stops, and ticks hand out jobs that
workers may or may not take.  In any such `Session` each callback of the symbol of a tick ends up in
one of three counts: it was handed out and taken, handed out and refused, or skipped (`Balanced`).

What a tick hands out is seen by another dispatcher (`Dispatcher.noting`): it keeps a list of the
jobs and the answers, and apart from this the tick goes the same way (`exists_run_tick`).
-/

namespace OpenFronthaul

namespace Scheduler

variable {σ : Type} {s : Scheduler}

/-! ## Jobs and answers -/

/-- A job that was handed out, and whether a worker took it. -/
structure Handed where
  job : JobKind
  event : SymbolEvent
  taken : Bool

lemma taken_add_refused (handed : List Handed) :
    handed.countP (·.taken) + handed.countP (!·.taken) = handed.length := by
  rw [List.length_eq_countP_add_countP (·.taken)]
  simp

/-- The dispatcher that also keeps a list of jobs and answers. -/
def Dispatcher.noting (dispatch : Dispatcher σ) : Dispatcher (σ × List Handed) :=
  fun job event (memory, handed) =>
    let (taken, memory) := (dispatch job event).run memory
    (taken, memory, handed ++ [⟨job, event, taken⟩])

lemma run_noting {dispatch : Dispatcher σ} {job : JobKind} {event : SymbolEvent}
    {memory memory' : σ} {taken : Bool} (h : (dispatch job event).run memory = (taken, memory'))
    (handed : List Handed) : (dispatch.noting job event).run (memory, handed) =
      (taken, memory', handed ++ [⟨job, event, taken⟩]) := by
  have hnote : (dispatch.noting job event).run (memory, handed) =
      let (taken, memory) := (dispatch job event).run memory
      (taken, memory, handed ++ [⟨job, event, taken⟩]) := rfl
  rw [hnote, h]

/-- The scheduler after a tick with the given answers. -/
def answered (s : Scheduler) (time : AirTime) (handed : List Handed) : Scheduler :=
  { s with
    counts :=
      { ticks := s.counts.ticks + 1
        dispatched := s.counts.dispatched + handed.countP (·.taken)
        skipped := s.counts.skipped + if s.isRunning then 0 else (s.bucket time.symbol).length
        refused := s.counts.refused + handed.countP (!·.taken) } }

lemma exists_run_dispatchAll (s : Scheduler) (dispatch : Dispatcher σ) (time : AirTime)
    (entries : List Callback) (memory : σ) (earlier : List Handed) :
    ∃ (handed : List Handed) (memory' : σ),
      (handed.map fun h => (h.job, h.event)) =
        (entries.map fun entry => (entry.job, s.event time entry)) ∧
      (s.dispatchAll dispatch time entries).run memory = (handed.countP (·.taken), memory') ∧
      (s.dispatchAll dispatch.noting time entries).run (memory, earlier) =
        (handed.countP (·.taken), memory', earlier ++ handed) := by
  induction entries generalizing memory earlier with
  | nil => exact ⟨[], memory, rfl, rfl, by rw [List.append_nil]; rfl⟩
  | cons entry rest ih =>
    rcases hanswer : (dispatch entry.job (s.event time entry)).run memory with ⟨taken, memory'⟩
    obtain ⟨handed, memory'', hjobs, hrun, hnoting⟩ :=
      ih memory' (earlier ++ [⟨entry.job, s.event time entry, taken⟩])
    have hcount (h : Handed) : h.taken.toNat + handed.countP (·.taken) =
        (h :: handed).countP (·.taken) := by
      rw [List.countP_cons, Nat.add_comm]
      cases h.taken <;> rfl
    refine ⟨⟨entry.job, s.event time entry, taken⟩ :: handed, memory'', ?_, ?_, ?_⟩
    · rw [List.map_cons, List.map_cons, hjobs]
    · rw [run_dispatchAll_cons, hanswer, ← hcount]
      dsimp only
      rw [hrun]
    · rw [run_dispatchAll_cons, run_noting hanswer, ← hcount]
      dsimp only
      rw [hnoting, List.append_assoc]
      rfl

/-- A tick hands out what is due, in order, and counts the answers, whether or not a list of them is
kept. -/
theorem exists_run_tick (s : Scheduler) (dispatch : Dispatcher σ) (time : AirTime) (memory : σ) :
    ∃ (handed : List Handed) (memory' : σ),
      (handed.map fun h => (h.job, h.event)) = s.due time ∧
      (s.tick dispatch time).run memory =
        ((handed.countP (·.taken), s.answered time handed), memory') ∧
      (s.tick dispatch.noting time).run (memory, []) =
        ((handed.countP (·.taken), s.answered time handed), memory', handed) := by
  cases hrun : s.isRunning with
  | true =>
    obtain ⟨handed, memory', hjobs, hplain, hnoting⟩ :=
      exists_run_dispatchAll s dispatch time (s.bucket time.symbol) memory []
    have hrefused : (s.bucket time.symbol).length - handed.countP (·.taken) =
        handed.countP (!·.taken) := by
      have hlength := congrArg List.length hjobs
      rw [List.length_map, List.length_map] at hlength
      rw [← hlength, ← taken_add_refused, Nat.add_sub_cancel_left]
    refine ⟨handed, memory', ?_, ?_, ?_⟩
    · rw [due, if_pos hrun, hjobs]
    · rw [run_tick_of_running hrun, hplain, answered, hrun, ← hrefused]
      rfl
    · rw [run_tick_of_running hrun, hnoting, answered, hrun, ← hrefused]
      rfl
  | false =>
    refine ⟨[], memory, ?_, ?_, ?_⟩
    · rw [due, hrun]
      rfl
    · rw [run_tick_of_not_running hrun, answered, hrun]
      rfl
    · rw [run_tick_of_not_running hrun, answered, hrun]
      rfl

/-! ## Reports of ticks -/

/-- A tick with what came of it. -/
structure TickReport (σ : Type) where
  /-- The scheduler before the tick. -/
  before : Scheduler
  /-- What the dispatcher knew. -/
  memory : σ
  /-- The dispatcher of the tick. -/
  dispatch : Dispatcher σ
  /-- The moment of the tick. -/
  time : AirTime
  /-- The answer of the tick. -/
  returned : ℕ
  /-- The scheduler after the tick. -/
  after : Scheduler
  /-- What the dispatcher knows then. -/
  learnt : σ

/-- The report of a tick. -/
def report (s : Scheduler) (dispatch : Dispatcher σ) (time : AirTime) (memory : σ) :
    TickReport σ :=
  let ((returned, after), learnt) := (s.tick dispatch time).run memory
  ⟨s, memory, dispatch, time, returned, after, learnt⟩

namespace TickReport

variable {r : TickReport σ} {handed : List Handed}

/-- The number of callbacks that were registered on the symbol of the tick. -/
def registered (r : TickReport σ) : ℕ :=
  (r.before.bucket r.time.symbol).length

/-- A tick handed out these jobs: one for every callback of its symbol while the interface runs, and
none otherwise. -/
structure HandsOut (r : TickReport σ) (handed : List Handed) : Prop where
  /-- This is the list that is kept of the jobs; apart from it the tick is as it was. -/
  run_noting : (r.before.tick r.dispatch.noting r.time).run (r.memory, []) =
    ((r.returned, r.after), r.learnt, handed)
  jobs_eq : (handed.map fun h => (h.job, h.event)) = r.before.due r.time
  running_of_ne_nil : handed ≠ [] → r.before.isRunning = true
  returned_eq : r.returned = handed.countP (·.taken)
  ticks_eq : r.after.counts.ticks = r.before.counts.ticks + 1
  dispatched_eq : r.after.counts.dispatched = r.before.counts.dispatched + r.returned
  skipped_eq : r.after.counts.skipped =
    r.before.counts.skipped + if r.before.isRunning then 0 else r.registered
  refused_eq : r.after.counts.refused = r.before.counts.refused + handed.countP (!·.taken)

/-- Every callback is counted once. -/
lemma HandsOut.balance (h : r.HandsOut handed) :
    r.after.counts.dispatched + r.after.counts.skipped + r.after.counts.refused =
      r.before.counts.dispatched + r.before.counts.skipped + r.before.counts.refused +
        r.registered := by
  have hlength := congrArg List.length h.jobs_eq
  rw [List.length_map, ← taken_add_refused, due] at hlength
  have hregistered : handed.countP (·.taken) + handed.countP (!·.taken) +
      (if r.before.isRunning then 0 else r.registered) = r.registered := by
    rw [hlength]
    split_ifs with hrun
    · exact List.length_map ..
    · exact Nat.zero_add _
  rw [h.dispatched_eq, h.skipped_eq, h.refused_eq, h.returned_eq]
  omega

end TickReport

theorem exists_handsOut (s : Scheduler) (dispatch : Dispatcher σ) (time : AirTime) (memory : σ) :
    ∃ handed, (s.report dispatch time memory).HandsOut handed := by
  obtain ⟨handed, learnt, hjobs, hplain, hnoting⟩ := exists_run_tick s dispatch time memory
  have hreport : s.report dispatch time memory = ⟨s, memory, dispatch, time,
      handed.countP (·.taken), s.answered time handed, learnt⟩ := by
    rw [report, hplain]
  rw [hreport]
  refine ⟨handed, hnoting, hjobs, ?_, rfl, rfl, rfl, rfl, rfl⟩
  intro hne
  by_contra hrun
  have hnone : s.due time = [] := if_neg hrun
  exact hne (List.map_eq_nil_iff.mp (hjobs.trans hnone))

/-! ## Changes -/

lemma counts_remove (id : ℕ) (s : Scheduler) :
    ((Step.remove id).run s).2.counts = s.counts := by
  cases hrun : s.isRunning with
  | true => rw [Step.run_remove_of_running hrun]
  | false =>
    by_cases hlive : ∃ entry ∈ s.live, entry.id = id
    · obtain ⟨symbol, -, hremove⟩ := Step.run_remove_of_live hrun hlive
      rw [hremove]
      rfl
    · push Not at hlive
      rw [Step.run_remove_of_not_live hrun hlive]

/-- Only ticks are counted. -/
lemma RegistryChange.counts_eq (c : RegistryChange) (s : Scheduler) :
    (c.step.run s).2.counts = s.counts := by
  cases c with
  | createCallbacks mode role handled =>
    simp only [step, Step.run_createCallbacks]
    split_ifs
    · rfl
    · rfl
    · exact counts_withDeadlines ..
  | register moment symbol =>
    simp only [step, Step.run_discard, Step.run_register]
    split_ifs <;> rfl
  | remove id =>
    simp only [step, Step.run_discard]
    exact counts_remove id s
  | removeUser moment symbol =>
    simp only [step, Step.run_removeUser]
    cases s.userId? moment symbol with
    | none => rfl
    | some id =>
      simp only [Step.run_discard]
      exact counts_remove id s
  | clear => rfl
  | start =>
    simp only [step, Step.run_start]
  | stop => rfl

/-! ## Sessions -/

/-- What the owner of a scheduler and the clock can do. -/
inductive Call (σ : Type) where
  /-- Change the registry, or start or stop the interface. -/
  | change (c : RegistryChange)
  /-- Let a symbol of time pass; a dispatcher takes or refuses the jobs. -/
  | tick (dispatch : Dispatcher σ) (time : AirTime)

/-- The moment of a tick. -/
def Call.time? : Call σ → Option AirTime
  | change _ => none
  | tick _ time => some time

/-- A scheduler in use. -/
structure Session (σ : Type) where
  /-- The scheduler. -/
  scheduler : Scheduler
  /-- What the dispatchers know. -/
  memory : σ
  /-- The ticks so far. -/
  reports : List (TickReport σ)

/-- The session after a call; a change may fail. -/
def Session.perform (x : Session σ) : Call σ → Session σ
  | .change c => { x with scheduler := (c.step.run x.scheduler).2 }
  | .tick dispatch time =>
    let report := x.scheduler.report dispatch time x.memory
    { scheduler := report.after, memory := report.learnt, reports := x.reports ++ [report] }

/-- A session that begins with an empty scheduler. -/
def Session.begin (mu : Numerology) (budget : DelayBudget) (memory : σ) : Session σ :=
  ⟨.create mu budget, memory, []⟩

/-- The session after calls one after another. -/
def Session.performAll (x : Session σ) (calls : List (Call σ)) : Session σ :=
  calls.foldl Session.perform x

/-- The counts of a session are those of its ticks. -/
structure Balanced (x : Session σ) : Prop where
  ticks_eq : x.scheduler.counts.ticks = x.reports.length
  /-- Every callback of the symbol of a tick is taken, skipped or refused. -/
  balance : x.scheduler.counts.dispatched + x.scheduler.counts.skipped +
    x.scheduler.counts.refused = (x.reports.map TickReport.registered).sum
  handsOut : ∀ r ∈ x.reports, ∃ handed, r.HandsOut handed

lemma Balanced.perform {x : Session σ} (h : Balanced x) (call : Call σ) :
    Balanced (x.perform call) := by
  cases call with
  | change c =>
    -- the counts and the reports stay
    have hcounts : (x.perform (.change c)).scheduler.counts = x.scheduler.counts :=
      c.counts_eq x.scheduler
    refine ⟨?_, ?_, h.handsOut⟩
    · rw [hcounts]
      exact h.ticks_eq
    · rw [hcounts]
      exact h.balance
  | tick dispatch time =>
    obtain ⟨handed, hhanded⟩ := exists_handsOut x.scheduler dispatch time x.memory
    have hcounts : (x.perform (.tick dispatch time)).scheduler.counts =
        (x.scheduler.report dispatch time x.memory).after.counts := rfl
    have hreports : (x.perform (.tick dispatch time)).reports =
        x.reports ++ [x.scheduler.report dispatch time x.memory] := rfl
    have hbefore : (x.scheduler.report dispatch time x.memory).before = x.scheduler := rfl
    refine ⟨?_, ?_, ?_⟩
    · rw [hcounts, hreports, hhanded.ticks_eq, hbefore, h.ticks_eq, List.length_append]
      rfl
    · rw [hcounts, hreports, hhanded.balance, hbefore, h.balance, List.map_append, List.sum_append,
        List.map_singleton, List.sum_singleton]
    · rw [hreports, List.forall_mem_append]
      refine ⟨h.handsOut, ?_⟩
      intro r hr
      obtain rfl := List.mem_singleton.mp hr
      exact ⟨handed, hhanded⟩

lemma Balanced.begin (mu : Numerology) (budget : DelayBudget) (memory : σ) :
    Balanced (Session.begin mu budget memory) where
  ticks_eq := rfl
  balance := rfl
  handsOut := by simp [Session.begin]

lemma Balanced.performAll {x : Session σ} (h : Balanced x) (calls : List (Call σ)) :
    Balanced (x.performAll calls) := by
  induction calls generalizing x with
  | nil => exact h
  | cons call calls ih => exact ih (h.perform call)

/-- The reports are those of the ticks, in order. -/
lemma times_performAll (x : Session σ) (calls : List (Call σ)) :
    (x.performAll calls).reports.map TickReport.time =
      x.reports.map TickReport.time ++ calls.filterMap Call.time? := by
  induction calls generalizing x with
  | nil => exact (List.append_nil _).symm
  | cons call calls ih =>
    have hcons : x.performAll (call :: calls) = (x.perform call).performAll calls := rfl
    rw [hcons, ih]
    cases call with
    | change c => rfl
    | tick dispatch time =>
      have hreports : (x.perform (.tick dispatch time)).reports =
          x.reports ++ [x.scheduler.report dispatch time x.memory] := rfl
      rw [hreports, List.map_append, List.append_assoc]
      rfl

/-- Whatever is done to a scheduler that starts empty, every tick is counted, and every callback
that is registered on the symbol of a tick is handed out while the interface runs and skipped
otherwise. -/
theorem balanced_session (mu : Numerology) (budget : DelayBudget) (memory : σ)
    (calls : List (Call σ)) :
    Balanced ((Session.begin mu budget memory).performAll calls) ∧
      ((Session.begin mu budget memory).performAll calls).reports.map TickReport.time =
        calls.filterMap Call.time? :=
  ⟨(Balanced.begin mu budget memory).performAll calls, times_performAll _ calls⟩

/-- A dispatcher whose workers have room for a number of jobs. -/
def room : Dispatcher ℕ := fun _ _ free => (0 < free, free - 1)

/-- Of two callbacks on a symbol both are skipped before the start; then one is taken. -/
example : ((Session.begin .khz30 {} 1).performAll [.change (.register .onAir 8),
    .change (.register .transmitWindowEnd 10), .tick room (AirClock.startingAt .khz30 0 8).now,
    .change .start, .tick room (AirClock.startingAt .khz30 1 8).now]).scheduler.counts =
      ⟨2, 1, 2, 1⟩ := by
  decide

end Scheduler

end OpenFronthaul
