import OpenFronthaul.Error

/-!
# Workers

Callbacks never run on the tick: each is handed to a worker, which runs its jobs in the order in
which it was given them.  All jobs of one kind go to the same worker.
-/

namespace OpenFronthaul

/-- Workers with the jobs that each was given, in the order in which it runs them. -/
structure Workers (job : Type) where
  /-- The jobs of each worker. -/
  queues : List (List job)
  /-- Jobs handed over so far. -/
  dispatched : Nat := 0

namespace Workers

variable {job : Type}

/-- The given number of idle workers; there must be one at least. -/
def start (count : Nat) : Except LinkError (Workers job) :=
  if count = 0 then throw .noWorkers else pure { queues := List.replicate count [] }

/-- The number of workers. -/
def count (workers : Workers job) : Nat :=
  workers.queues.length

/-- The worker for a kind of work. -/
def assign (workers : Workers job) (kind : JobKind) : Nat :=
  kind.index % workers.count

/-- Hand a job to a worker. -/
def dispatch (workers : Workers job) (worker : Nat) (work : job) :
    Except LinkError (Workers job) :=
  if worker < workers.count then
    pure
      { queues := workers.queues.modify worker (· ++ [work])
        dispatched := workers.dispatched + 1 }
  else throw (.workerUnavailable worker)

end Workers

end OpenFronthaul
