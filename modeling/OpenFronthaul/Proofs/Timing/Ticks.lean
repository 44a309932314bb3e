import OpenFronthaul.Proofs.Store.Contexts
import OpenFronthaul.Proofs.Timing.Deadlines

/-!
# Ticks

A tick hands out the callbacks of its symbol in order and counts them; the registry stays.  A
dispatcher that takes every job and makes a note of it ends up with the notes of all callbacks that
were due, on one tick (`run_tick_of_takes`) and on any number of them (`run_ticks_of_takes`).
-/

namespace OpenFronthaul

/-! ## Moving the clock -/

lemma AirClock.advance_advance (clock : AirClock) (m n : ℕ) :
    (clock.advance m).advance n = clock.advance (m + n) :=
  congrArg (AirClock.mk clock.mu) (Nat.add_assoc clock.symbols m n)

lemma AirClock.advance_tick (clock : AirClock) (n : ℕ) :
    clock.tick.advance n = clock.advance (n + 1) := by
  rw [tick, advance_advance, Nat.add_comm]

/-- A slot number may be wrapped before or after more slots are counted. -/
lemma wrapSlot_wrapSlot_add (mu : Numerology) (slot more : ℤ) :
    mu.wrapSlot (mu.wrapSlot slot + more) = mu.wrapSlot (slot + more) := by
  cases mu <;>
    simp only [Numerology.wrapSlot, Numerology.slotsPerSecond, Numerology.slotMicros,
      Numerology.index] <;>
    omega

/-- At most one number of a range is a given one. -/
lemma filter_eq_range (count n : ℕ) :
    (List.range count).filter (· = n) = if n < count then [n] else [] := by
  rw [List.filter_eq]
  split_ifs with h
  · rw [List.count_eq_one_of_mem List.nodup_range (List.mem_range.mpr h)]
    rfl
  · rw [List.count_eq_zero_of_not_mem (mt List.mem_range.mp h)]
    rfl

namespace Scheduler

/-! ## What a callback is told -/

section Event

variable {s : Scheduler} {mu : Numerology}

/-- On a symbol of the clock a callback is told the slot that lies as far ahead as it says. -/
lemma target_event (h : s.table.mu = mu) (symbols : ℕ) (entry : Callback) :
    (s.event (AirClock.now ⟨mu, symbols⟩) entry).target =
      mu.wrapSlot ((symbols / 14 : ℕ) + entry.slots) := by
  subst h
  exact wrapSlot_wrapSlot_add s.table.mu (symbols / 14 : ℕ) entry.slots

/-- The wrapped number of that slot tells the rotation context. -/
lemma context_event (h : s.table.mu = mu) (symbols : ℕ) (entry : Callback) :
    (s.event (AirClock.now ⟨mu, symbols⟩) entry).context =
      UInt8.ofNat (((symbols / 14 : ℕ) + entry.slots) % 4).toNat := by
  rw [← rotationContext_wrapSlot mu, ← target_event h]
  rfl

end Event

/-! ## What is due -/

variable {σ : Type} {s : Scheduler}

/-- What is handed out at a moment, with the kind of work that it is. -/
def due (s : Scheduler) (time : AirTime) : List (JobKind × SymbolEvent) :=
  if s.isRunning then (s.bucket time.symbol).map fun entry => (entry.job, s.event time entry)
  else []

/-- The scheduler after a tick on which every job is taken. -/
def ticked (s : Scheduler) (time : AirTime) : Scheduler :=
  { s with
    counts :=
      { s.counts with
        ticks := s.counts.ticks + 1
        dispatched := s.counts.dispatched + (s.due time).length
        skipped := s.counts.skipped +
          if s.isRunning then 0 else (s.bucket time.symbol).length } }

/-- A dispatcher that takes every job and makes a note of it. -/
def Takes (dispatch : Dispatcher σ) (note : σ → JobKind → SymbolEvent → σ) : Prop :=
  ∀ job event memory, (dispatch job event).run memory = (true, note memory job event)

lemma run_dispatchAll_cons (s : Scheduler) (dispatch : Dispatcher σ) (time : AirTime)
    (entry : Callback) (rest : List Callback) (memory : σ) :
    (s.dispatchAll dispatch time (entry :: rest)).run memory =
      let (taken, memory) := (dispatch entry.job (s.event time entry)).run memory
      let (more, memory) := (s.dispatchAll dispatch time rest).run memory
      (taken.toNat + more, memory) :=
  rfl

lemma run_dispatchAll_of_takes {dispatch : Dispatcher σ} {note : σ → JobKind → SymbolEvent → σ}
    (h : Takes dispatch note) (time : AirTime) (entries : List Callback) (memory : σ) :
    (s.dispatchAll dispatch time entries).run memory =
      (entries.length,
        entries.foldl (fun memory entry => note memory entry.job (s.event time entry)) memory) := by
  induction entries generalizing memory with
  | nil => rfl
  | cons entry rest ih =>
    rw [run_dispatchAll_cons, h]
    dsimp only
    rw [ih, List.length_cons, Nat.add_comm]
    rfl

lemma run_tick_of_running (h : s.isRunning = true) (dispatch : Dispatcher σ) (time : AirTime)
    (memory : σ) : (s.tick dispatch time).run memory =
      let (taken, memory) := (s.dispatchAll dispatch time (s.bucket time.symbol)).run memory
      ((taken, { s with
        counts :=
          { s.counts with
            ticks := s.counts.ticks + 1
            dispatched := s.counts.dispatched + taken
            refused := s.counts.refused + ((s.bucket time.symbol).length - taken) } }),
        memory) := by
  simp only [tick, h, if_true]
  rfl

lemma run_tick_of_not_running (h : s.isRunning = false) (dispatch : Dispatcher σ) (time : AirTime)
    (memory : σ) : (s.tick dispatch time).run memory =
      ((0, { s with
        counts :=
          { s.counts with
            ticks := s.counts.ticks + 1
            skipped := s.counts.skipped + (s.bucket time.symbol).length } }), memory) := by
  simp only [tick, h, Bool.false_eq_true, if_false]
  rfl

/-- When every job is taken, a tick leaves a note of each one that was due. -/
theorem run_tick_of_takes {dispatch : Dispatcher σ} {note : σ → JobKind → SymbolEvent → σ}
    (h : Takes dispatch note) (time : AirTime) (memory : σ) :
    (s.tick dispatch time).run memory =
      (((s.due time).length, s.ticked time),
        (s.due time).foldl (fun memory x => note memory x.1 x.2) memory) := by
  cases hrun : s.isRunning with
  | true =>
    rw [run_tick_of_running hrun, run_dispatchAll_of_takes h, ticked, due, hrun, if_pos rfl,
      List.foldl_map, List.length_map]
    simp
  | false =>
    rw [run_tick_of_not_running hrun, ticked, due, hrun]
    rfl

@[simp] lemma bucket_ticked (time : AirTime) (symbol : ℕ) :
    (s.ticked time).bucket symbol = s.bucket symbol := rfl

@[simp] lemma isRunning_ticked (time : AirTime) : (s.ticked time).isRunning = s.isRunning := rfl

@[simp] lemma due_ticked (time later : AirTime) : (s.ticked time).due later = s.due later := rfl

/-- The scheduler after the ticks of a number of symbols. -/
def afterTicks (s : Scheduler) (clock : AirClock) : ℕ → Scheduler
  | 0 => s
  | n + 1 => (s.afterTicks clock n).ticked (clock.advance n).now

lemma due_afterTicks (clock : AirClock) (n : ℕ) (time : AirTime) :
    (s.afterTicks clock n).due time = s.due time := by
  induction n with
  | zero => rfl
  | succ n ih => exact ih

lemma isRunning_afterTicks (clock : AirClock) (n : ℕ) :
    (s.afterTicks clock n).isRunning = s.isRunning := by
  induction n with
  | zero => rfl
  | succ n ih => exact ih

/-- The first of a number of ticks can be taken by itself. -/
lemma afterTicks_succ (s : Scheduler) (clock : AirClock) (n : ℕ) :
    s.afterTicks clock (n + 1) = (s.ticked clock.now).afterTicks clock.tick n := by
  induction n with
  | zero => rfl
  | succ n ih =>
    rw [afterTicks, ih, ← AirClock.advance_tick]
    rfl

/-- When every job is taken, ticks leave a note of each one that was due, in order. -/
theorem run_ticks_of_takes {dispatch : Dispatcher σ} {note : σ → JobKind → SymbolEvent → σ}
    (h : Takes dispatch note) (s : Scheduler) (clock : AirClock) (n : ℕ) (memory : σ) :
    (s.ticks dispatch clock n).run memory =
      (((List.range n).map fun i => (s.due (clock.advance i).now).length,
          s.afterTicks clock n, clock.advance n),
        ((List.range n).flatMap fun i => s.due (clock.advance i).now).foldl
          (fun memory x => note memory x.1 x.2) memory) := by
  induction n generalizing s clock memory with
  | zero => rfl
  | succ n ih =>
    have hrun : (s.ticks dispatch clock (n + 1)).run memory =
        let ((taken, t), memory) := (s.tick dispatch clock.now).run memory
        let ((more, u, clock), memory) := (t.ticks dispatch clock.tick n).run memory
        ((taken :: more, u, clock), memory) := rfl
    rw [hrun, run_tick_of_takes h]
    dsimp only
    rw [ih, afterTicks_succ, List.range_succ_eq_map, List.map_cons, List.map_map,
      List.flatMap_cons, List.flatMap_map, List.foldl_append]
    simp only [due_ticked, AirClock.advance_tick]
    rfl

/-! ## Ticks of deadlines -/

/-- The scheduler for deadlines whose interface was started. -/
def withRunning (s : Scheduler) (ds : List Deadline) : Scheduler :=
  { s.withDeadlines ds with state := .running }

/-- What the deadlines of a symbol are told at a moment of it. -/
theorem due_withRunning (s : Scheduler) {ds : List Deadline}
    (h : ∀ d ∈ ds, d.offset.symbol < symbolsPerSlot) (hempty : ∀ symbol, s.bucket symbol = [])
    (time : AirTime) :
    (s.withRunning ds).due time =
      (ds.filter (·.offset.symbol = time.symbol)).map fun d =>
        (d.job, s.event time (d.callback 0)) := by
  have hbucket : (s.withRunning ds).bucket time.symbol =
      ((ds.zipIdx s.nextId).filter (·.1.offset.symbol = time.symbol)).map fun x =>
        x.1.callback x.2 := by
    rw [← List.nil_append (List.map _ _), ← hempty time.symbol]
    exact bucket_withDeadlines s h time.symbol
  have hevent (d : Deadline) (id : ℕ) : (s.withRunning ds).event time (d.callback id) =
      s.event time (d.callback 0) := by
    simp only [event, withRunning, table_withDeadlines]
    rfl
  have hplain := congrArg (List.filter (·.offset.symbol = time.symbol))
    (List.zipIdx_map_fst s.nextId ds)
  rw [due, if_pos (by rfl), hbucket, List.map_map, ← hplain, List.filter_map, List.map_map]
  exact List.map_congr_left fun x _ => Prod.ext rfl (hevent x.1 x.2)

end Scheduler

end OpenFronthaul
