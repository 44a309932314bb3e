import OpenFronthaul.Emulation.Run
import OpenFronthaul.Proofs.Timing.Ticks

/-!
# Workers in any order

In a run the jobs of a symbol are performed at once.  Workers need not be that fast: a `Crew` is a run
whose jobs wait with the workers of their kind, and whose packets wait in the queue, while the clock
goes on.  The workers of one kind perform their jobs in the order in which they were handed out, and
packets are received in the order in which they were sent; apart from this, what happens next is open
(`Action`).  What was handed out by then only depends on the number of ticks (`OnTime`).
-/

namespace OpenFronthaul

namespace Direction

/-- The work that builds for a direction. -/
def work : Direction → JobKind
  | .dl => .dlControl
  | .ul => .ulControl

/-- The callback that builds for a direction. -/
def control : Direction → CallbackKind
  | .dl => .dlControl
  | .ul => .ulControl

lemma work_injective {d d' : Direction} (h : d.work = d'.work) : d = d' := by
  cases d <;> cases d' <;> first | rfl | cases h

end Direction

/-- A job as it was handed out. -/
structure Job where
  /-- The symbols that had passed by then. -/
  symbols : ℕ
  /-- What the job is told. -/
  event : SymbolEvent

/-- A run whose jobs wait until the workers of their kind perform them. -/
structure Crew where
  /-- The run. -/
  run : Run
  /-- The jobs of each kind that wait, the one that is next first. -/
  waiting : JobKind → List Job
  /-- The jobs of each kind that were performed, in order. -/
  done : JobKind → List Job

namespace Crew

/-- A crew that has nothing to do yet. -/
def ofRun (run : Run) : Crew :=
  ⟨run, fun _ => [], fun _ => []⟩

/-- A dispatcher that gives every job to the workers of its kind. -/
def assign (symbols : ℕ) : Scheduler.Dispatcher (JobKind → List Job) := fun kind event => do
  modify fun waiting => Function.update waiting kind (waiting kind ++ [⟨symbols, event⟩])
  return true

/-- One symbol of time: the jobs of the symbol are handed out. -/
def tick (crew : Crew) : Crew :=
  let ((_, scheduler), waiting) :=
    (crew.run.scheduler.tick (assign crew.run.clock.symbols) crew.run.clock.now).run crew.waiting
  { crew with run := { crew.run with scheduler, clock := crew.run.clock.tick }, waiting }

/-- The crew after a job of a kind, with those of the kind that still wait. -/
def perform (crew : Crew) (kind : JobKind) (job : Job) (rest : List Job) : Crew where
  run := crew.run.perform job.event
  waiting := Function.update crew.waiting kind rest
  done := Function.update crew.done kind (crew.done kind ++ [job])

/-- Perform the first job of a kind, if one waits. -/
def work (crew : Crew) (kind : JobKind) : Crew :=
  match crew.waiting kind with
  | [] => crew
  | job :: rest => crew.perform kind job rest

/-- Receive the packet that was sent first, if one was sent. -/
def receive (crew : Crew) : Crew :=
  { crew with run := crew.run.receiveNext }

/-- What can happen next. -/
inductive Action where
  /-- A symbol of time passes. -/
  | tick
  /-- The workers of a kind perform a job. -/
  | work (kind : JobKind)
  /-- The radio unit takes in a packet. -/
  | receive
deriving DecidableEq

/-- The crew after something happened. -/
def act (crew : Crew) : Action → Crew
  | .tick => crew.tick
  | .work kind => crew.work kind
  | .receive => crew.receive

/-- The crew after things happened one after another. -/
def play (crew : Crew) (actions : List Action) : Crew :=
  actions.foldl act crew

/-- Nothing is left to do. -/
structure Idle (crew : Crew) : Prop where
  waiting : ∀ kind, crew.waiting kind = []
  queue : crew.run.queue = []

/-! ## What is handed out -/

/-- The jobs that a run hands out on a tick, with their kinds. -/
def due (start : Run) (n : ℕ) : List (JobKind × Job) :=
  (start.scheduler.due (start.clock.advance n).now).map fun x =>
    (x.1, ⟨start.clock.symbols + n, x.2⟩)

/-- The jobs of a kind among some jobs. -/
def ofKind (kind : JobKind) (jobs : List (JobKind × Job)) : List Job :=
  (jobs.filter (·.1 = kind)).map Prod.snd

/-- The jobs of a kind that a run hands out within a number of ticks. -/
def handed (start : Run) (n : ℕ) (kind : JobKind) : List Job :=
  (List.range n).flatMap fun i => ofKind kind (due start i)

lemma handed_succ (start : Run) (n : ℕ) (kind : JobKind) :
    handed start (n + 1) kind = handed start n kind ++ ofKind kind (due start n) := by
  rw [handed, List.range_succ, List.flatMap_append, List.flatMap_singleton]
  rfl

lemma ofKind_cons (kind : JobKind) (x : JobKind × Job) (jobs : List (JobKind × Job)) :
    ofKind kind (x :: jobs) = (if x.1 = kind then [x.2] else []) ++ ofKind kind jobs := by
  unfold ofKind
  by_cases h : x.1 = kind <;> simp [h]

lemma takes_assign (symbols : ℕ) :
    Scheduler.Takes (assign symbols) fun waiting kind event =>
      Function.update waiting kind (waiting kind ++ [⟨symbols, event⟩]) :=
  fun _ _ _ => rfl

/-- Jobs that are handed out wait behind those of their kind that wait already. -/
lemma foldl_assign (symbols : ℕ) (jobs : List (JobKind × SymbolEvent))
    (waiting : JobKind → List Job) (kind : JobKind) :
    jobs.foldl (fun waiting x => Function.update waiting x.1
        (waiting x.1 ++ [(⟨symbols, x.2⟩ : Job)])) waiting kind =
      waiting kind ++ ofKind kind (jobs.map fun x => (x.1, ⟨symbols, x.2⟩)) := by
  induction jobs generalizing waiting with
  | nil => simp [ofKind]
  | cons x jobs ih =>
    rw [List.foldl_cons, ih, List.map_cons, ofKind_cons]
    by_cases h : x.1 = kind
    · subst h
      simp
    · simp [h, Function.update_of_ne (Ne.symm h)]

lemma tick_eq (crew : Crew) :
    crew.tick =
      { crew with
        run := { crew.run with
          scheduler := crew.run.scheduler.ticked crew.run.clock.now
          clock := crew.run.clock.tick }
        waiting := fun kind => crew.waiting kind ++ ofKind kind
          ((crew.run.scheduler.due crew.run.clock.now).map fun x =>
            (x.1, ⟨crew.run.clock.symbols, x.2⟩)) } := by
  unfold tick
  rw [Scheduler.run_tick_of_takes (takes_assign _)]
  dsimp only
  congr 1
  funext kind
  exact foldl_assign _ _ _ _

/-! ## On time -/

/-- A crew that has seen a number of ticks since a run started. -/
structure OnTime (start : Run) (n : ℕ) (crew : Crew) : Prop where
  plan_eq : crew.run.plan = start.plan
  clock_eq : crew.run.clock = start.clock.advance n
  scheduler_eq : crew.run.scheduler = start.scheduler.afterTicks start.clock n
  /-- Every job was handed out, and is performed or waits. -/
  handed_eq : ∀ kind, crew.done kind ++ crew.waiting kind = handed start n kind

lemma perform_frame (run : Run) (event : SymbolEvent) :
    (run.perform event).plan = run.plan ∧ (run.perform event).clock = run.clock ∧
      (run.perform event).scheduler = run.scheduler ∧ (run.perform event).radio = run.radio := by
  unfold Run.perform
  cases event.kind <;> exact ⟨rfl, rfl, rfl, rfl⟩

namespace OnTime

variable {start : Run} {n : ℕ} {crew : Crew}

lemma ofRun (start : Run) : OnTime start 0 (ofRun start) where
  plan_eq := rfl
  clock_eq := rfl
  scheduler_eq := rfl
  handed_eq := fun _ => rfl

lemma tick (h : OnTime start n crew) : OnTime start (n + 1) crew.tick := by
  rw [tick_eq]
  refine ⟨h.plan_eq, ?_, ?_, fun kind => ?_⟩
  · dsimp only
    rw [h.clock_eq]
    exact AirClock.advance_advance start.clock n 1
  · dsimp only
    rw [h.scheduler_eq, h.clock_eq]
    rfl
  · dsimp only
    rw [← List.append_assoc, h.handed_eq, handed_succ, h.scheduler_eq, h.clock_eq,
      Scheduler.due_afterTicks]
    rfl

lemma work (h : OnTime start n crew) (kind : JobKind) : OnTime start n (crew.work kind) := by
  unfold Crew.work
  cases hwaiting : crew.waiting kind with
  | nil => exact h
  | cons job rest =>
    obtain ⟨hplan, hclock, hscheduler, -⟩ := perform_frame crew.run job.event
    refine ⟨hplan.trans h.plan_eq, hclock.trans h.clock_eq, hscheduler.trans h.scheduler_eq, ?_⟩
    intro other
    rw [← h.handed_eq other]
    by_cases heq : other = kind
    · subst heq
      simp [perform, hwaiting]
    · simp [perform, Function.update_of_ne heq]

lemma receive (h : OnTime start n crew) : OnTime start n crew.receive := by
  unfold Crew.receive Run.receiveNext
  cases crew.run.queue with
  | nil => exact h
  | cons packet queue => exact ⟨h.plan_eq, h.clock_eq, h.scheduler_eq, h.handed_eq⟩

lemma play (h : OnTime start n crew) (actions : List Action) :
    OnTime start (n + actions.count .tick) (crew.play actions) := by
  induction actions generalizing n crew with
  | nil => exact h
  | cons action actions ih =>
    cases action with
    | tick =>
      rw [List.count_cons_self, Nat.add_comm (actions.count _), ← Nat.add_assoc]
      exact ih h.tick
    | work kind =>
      rw [List.count_cons_of_ne (by simp)]
      exact ih (h.work kind)
    | receive =>
      rw [List.count_cons_of_ne (by simp)]
      exact ih h.receive

end OnTime

end Crew

end OpenFronthaul
