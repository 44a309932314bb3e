import OpenFronthaul.Emulation.DistributedUnit
import OpenFronthaul.Emulation.RadioUnit

/-!
# Runs

A run lets the clock go from its start over the configured number of slots.  On every symbol the
due jobs are handed out, performed in that order, and what they sent is received in the order in
which it was sent.  A job and the receipt of a packet are steps of their own (`perform`,
`receiveNext`), so that other orders can be told as well.
-/

namespace OpenFronthaul

/-- The state of an emulated fronthaul at work. -/
structure Run where
  /-- What both sides go by. -/
  plan : Plan
  /-- The symbols that have passed. -/
  clock : AirClock
  /-- The registered deadlines. -/
  scheduler : Scheduler
  /-- The producer of the distributed unit. -/
  producer : Producer
  /-- Packets that were sent and not yet received. -/
  queue : List Bytes := []
  /-- The radio unit. -/
  radio : RadioUnit
  /-- Reception deadlines that have passed. -/
  ulDeadlines : Nat := 0

/-- The outcome of a run. -/
structure RunSummary where
  /-- Slots that have passed. -/
  slots : Nat
  /-- Counts of the producer. -/
  producer : ProducerCounts
  /-- Counts of the scheduler. -/
  scheduler : TickCounts
  /-- Counts of the radio unit. -/
  radio : ReceiveCounts
  /-- Reception deadlines that have passed. -/
  ulDeadlines : Nat
deriving DecidableEq

namespace Run

/-- The state at the start of a run: the deadlines are registered and the interface runs. -/
def create (config : Config) : Except Error Run := do
  let plan ← Plan.create config
  let store ← plan.emptyStore
  let scheduler ← (Scheduler.create config.mu config.budget).createCallbacks config.dlMode
    config.role { dlControl := true, ulControl := true, ulArrival := true }
  let scheduler ← scheduler.start
  let settings : ProducerSettings :=
    { mu := config.mu, tagging := config.tagging, framer := plan.framer, frame := plan.frame
      mtu := config.mtu }
  return {
    plan, scheduler
    clock := ⟨config.mu, 0⟩
    producer := { settings, store }
    radio := { store } }

/-- Build and send the control messages of a direction. -/
def build (run : Run) (direction : Direction) (event : SymbolEvent) : Run :=
  let (sent, producer) := (run.plan.build direction event).run run.producer
  { run with producer, queue := run.queue ++ sent }

/-- Perform a job. -/
def perform (run : Run) (event : SymbolEvent) : Run :=
  match event.kind with
  | .dlControl => run.build .dl event
  | .ulControl => run.build .ul event
  | .ulHalfArrived | .ulArrived => { run with ulDeadlines := run.ulDeadlines + 1 }
  | .radioUlSend | .radioDlArrived | .user _ => run

/-- Receive the packet that was sent first. -/
def receiveNext (run : Run) : Run :=
  match run.queue with
  | [] => run
  | packet :: queue => { run with queue, radio := run.radio.receive run.plan packet }

/-- Receive all packets that were sent. -/
def receiveAll (run : Run) : Run :=
  { run with queue := [], radio := run.queue.foldl (RadioUnit.receive run.plan) run.radio }

/-- A dispatcher that takes every job, in order. -/
def collect : Scheduler.Dispatcher (List SymbolEvent) := fun _ event => do
  modify (· ++ [event])
  return true

/-- One symbol of time, with the jobs that it hands out. -/
def handOut (run : Run) : List SymbolEvent × Run :=
  let ((_, scheduler), events) := (run.scheduler.tick collect run.clock.now).run []
  (events, { run with scheduler, clock := run.clock.tick })

/-- One symbol of time and everything that happens on it. -/
def tick (run : Run) : Run :=
  let (events, run) := run.handOut
  (events.foldl perform run).receiveAll

/-- A number of symbols of time. -/
def ticks (run : Run) : Nat → Run
  | 0 => run
  | count + 1 => run.tick.ticks count

/-- The outcome so far. -/
def summary (run : Run) : RunSummary where
  slots := run.clock.now.absoluteSlot
  producer := run.producer.counts
  scheduler := run.scheduler.counts
  radio := run.radio.counts
  ulDeadlines := run.ulDeadlines

end Run

/-- Run a configuration to its end. -/
def Config.run (config : Config) : Except Error RunSummary := do
  let start ← Run.create config
  return (start.ticks (config.runSlots * symbolsPerSlot)).summary

end OpenFronthaul
