import OpenFronthaul.Timing.Clock
import OpenFronthaul.Timing.Deadline

/-!
# The callback registry

Callbacks are registered on the fourteen symbols of a slot, each with the number of slots to the one
that it serves.  On a tick the callbacks of the symbol are handed out in the order in which they
were registered, as long as the interface runs; nothing is executed by the tick itself.  The
registry can only change while the interface does not run.  A change is a `Step`, whose effect stays
also where it fails; `Step.after` is what a step leaves behind when it succeeds.

An application can register one callback of each moment on a symbol; `users` finds its number.
-/

namespace OpenFronthaul

-- Sums begin with the zero of the core library, whatever else is imported.
attribute [local instance (high)] Zero.ofOfNat0

/-- Whether the interface works. -/
inductive RunState where
  | initial
  | running
  | stopped
deriving DecidableEq

/-- How the downlink control messages of a slot are laid out. -/
inductive DlMode where
  /-- All on one symbol. -/
  | burst
  /-- One part on each symbol between the longest and the shortest delay. -/
  | spread
deriving DecidableEq

/-- The side of the fronthaul. -/
inductive Role where
  | distributedUnit
  | radioUnit
deriving DecidableEq

/-- The deadlines that someone handles; the others are not registered. -/
structure Handled where
  dlControl : Bool := false
  ulControl : Bool := false
  ulArrival : Bool := false
  radioUlSend : Bool := false
  radioDlArrival : Bool := false

/-- A registered callback. -/
structure Callback where
  /-- Its number, which no other callback gets. -/
  id : Nat
  /-- What it is for. -/
  kind : CallbackKind
  /-- The kind of work that it hands out. -/
  job : JobKind
  /-- Slots to the one that it serves. -/
  slots : Int
  /-- The part of the work, from zero on. -/
  part : Nat := 0
  /-- The number of parts. -/
  parts : Nat := 1
deriving DecidableEq

/-- The callback of an application. -/
structure UserEntry where
  /-- The moment that the application asked for. -/
  moment : Moment
  /-- The symbol on which the callback fires. -/
  symbol : Nat
  /-- The number of the callback. -/
  id : Nat
deriving DecidableEq

/-- What a callback is told when it fires. -/
structure SymbolEvent where
  /-- Numerology of the carrier. -/
  mu : Numerology
  /-- The slot of the tick. -/
  slot : Nat
  /-- The symbol of the tick. -/
  symbol : Nat
  /-- The slot that is served. -/
  target : Nat
  /-- The rotation context of the served slot. -/
  context : UInt8
  /-- What the callback is for. -/
  kind : CallbackKind
  /-- The part of the work. -/
  part : Nat
  /-- The number of parts. -/
  parts : Nat
deriving DecidableEq

/-- What happened on ticks so far. -/
structure TickCounts where
  /-- Ticks. -/
  ticks : Nat := 0
  /-- Callbacks handed out. -/
  dispatched : Nat := 0
  /-- Callbacks due while the interface did not run. -/
  skipped : Nat := 0
  /-- Callbacks that no worker took. -/
  refused : Nat := 0
deriving DecidableEq

/-- The callbacks of a carrier. -/
structure Scheduler where
  /-- The delays that deadlines follow from. -/
  budget : DelayBudget
  /-- The deadlines. -/
  table : DeadlineTable
  /-- The callbacks of each symbol in firing order. -/
  buckets : Vector (List Callback) 14
  /-- The callbacks of applications. -/
  users : List UserEntry
  /-- Whether the interface works. -/
  state : RunState
  /-- The number of the next callback. -/
  nextId : Nat
  /-- What happened on ticks so far. -/
  counts : TickCounts

namespace Scheduler

/-- A registry without callbacks. -/
def create (mu : Numerology) (budget : DelayBudget) : Scheduler where
  budget
  table := .derive budget mu
  buckets := Vector.replicate 14 []
  users := []
  state := .initial
  nextId := 0
  counts := {}

/-! ## Looking at the registry -/

/-- Whether the interface runs. -/
def isRunning (s : Scheduler) : Bool :=
  s.state = .running

/-- The callbacks of a symbol. -/
def bucket (s : Scheduler) (symbol : Nat) : List Callback :=
  s.buckets[symbol]?.getD []

/-- The registry with other callbacks on a symbol. -/
def setBucket (s : Scheduler) (symbol : Nat) (bucket : List Callback) : Scheduler :=
  { s with buckets := s.buckets.setIfInBounds symbol bucket }

/-- The registry with one more callback at the end of a symbol's bucket. -/
def withCallback (s : Scheduler) (offset : SymbolOffset) (kind : CallbackKind) (job : JobKind)
    (part parts : Nat) : Scheduler :=
  let entry : Callback := { id := s.nextId, kind, job, slots := offset.slots, part, parts }
  { s.setBucket offset.symbol (s.bucket offset.symbol ++ [entry]) with nextId := s.nextId + 1 }

/-- The number of the callback of an application. -/
def userId? (s : Scheduler) (moment : Moment) (symbol : Nat) : Option Nat :=
  (s.users.find? fun u => u.moment = moment ∧ u.symbol = symbol).map UserEntry.id

/-- The symbols from a symbol to a moment of it. -/
def momentDistance (s : Scheduler) (moment : Moment) : Int :=
  match moment with
  | .onAir => 0
  | .receiveWindowBegin => symbolsIn s.table.mu s.budget.ta4Min.toNat .down
  | .receiveWindowEnd => symbolsIn s.table.mu s.budget.ta4Max.toNat .up
  | .transmitWindowBegin => -symbolsIn s.table.mu s.budget.t1aMaxUser.toNat .down
  | .transmitWindowEnd => -symbolsIn s.table.mu s.budget.t1aMinUser.toNat .down

/-- When a callback for a moment of a symbol fires. -/
def momentOffset (s : Scheduler) (moment : Moment) (symbol : Nat) : SymbolOffset :=
  .ofPosition (symbol + s.momentDistance moment)

/-! ## Changing the registry -/

/-- A change of the registry; its effect stays when it fails. -/
abbrev Step (α : Type) := ExceptT Error (StateM Scheduler) α

namespace Step

/-- Start the interface; a running one refuses and runs on. -/
def start : Step Unit := do
  let s ← get
  set { s with state := .running }
  if s.isRunning then throw .alreadyRunning

/-- Refuse a change while the interface runs. -/
def checkStopped : Step Unit := do
  if (← get).isRunning then throw .callbacksFixed

/-- Register a callback at the end of a symbol's bucket, and tell its number. -/
def push (offset : SymbolOffset) (kind : CallbackKind) (job : JobKind) (part parts : Nat) :
    Step Nat :=
  modifyGet fun s => (s.nextId, s.withCallback offset kind job part parts)

/-- Register the parts of the downlink control messages, one on each of the symbols. -/
def pushParts (parts part : Nat) : List SymbolOffset → Step Unit
  | [] => pure ()
  | offset :: rest => do
    discard (push offset .dlControl .dlControl part parts)
    pushParts parts (part + 1) rest

/-- Register the downlink control messages; there may be at most 255 parts. -/
def pushDl (table : DeadlineTable) (mode : DlMode) : Step Unit :=
  match mode with
  | .burst => discard (push table.dlControl .dlControl .dlControl 0 1)
  | .spread => do
    let spread := table.dlControlSpread
    if 255 < spread.length then throw (.spreadParts spread.length)
    pushParts spread.length 0 spread

/-- Register a deadline that is not split. -/
def pushWhole (offset : SymbolOffset) (kind : CallbackKind) (job : JobKind) : Step Unit :=
  discard (push offset kind job 0 1)

/-- Do something if someone handles it. -/
def whenHandled (handled : Bool) (step : Step Unit) : Step Unit :=
  if handled then step else pure ()

/-- Register the handled deadlines of one side. -/
def createCallbacks (mode : DlMode) (role : Role) (handled : Handled) : Step Unit := do
  checkStopped
  let table := (← get).table
  match role with
  | .distributedUnit =>
    whenHandled handled.dlControl (pushDl table mode)
    whenHandled handled.ulControl (pushWhole table.ulControl .ulControl .ulControl)
    whenHandled handled.ulArrival do
      pushWhole table.ulFull .ulArrived .deadline
      pushWhole table.ulHalf .ulHalfArrived .deadline
  | .radioUnit =>
    whenHandled handled.radioUlSend (pushWhole table.radioUlSend .radioUlSend .deadline)
    whenHandled handled.radioDlArrival (pushWhole table.radioDlArrival .radioDlArrived .deadline)

/-- Register a callback for a moment of a symbol, and tell the symbol on which it fires. -/
def register (moment : Moment) (symbol : Nat) : Step Nat := do
  checkStopped
  if symbolsPerSlot ≤ symbol then throw (.symbolOutOfRange symbol)
  let s ← get
  let offset := s.momentOffset moment symbol
  if (s.userId? moment offset.symbol).isSome then throw (.callbackTaken moment offset.symbol)
  let id ← push offset (.user moment) .application 0 1
  modify fun s => { s with users := s.users ++ [⟨moment, offset.symbol, id⟩] }
  return offset.symbol

/-- Remove the callback of a number, and tell whether there was one. -/
def remove (id : Nat) : Step Bool := do
  checkStopped
  let s ← get
  match s.buckets.toList.findIdx? (·.any (·.id = id)) with
  | none => return false
  | some symbol =>
    set
      { s.setBucket symbol ((s.bucket symbol).eraseP (·.id = id)) with
        users := s.users.filter (·.id ≠ id) }
    return true

/-- Remove the callback of an application for a moment that fires on a symbol. -/
def removeUser (moment : Moment) (symbol : Nat) : Step Unit := do
  match (← get).userId? moment symbol with
  | none => throw (.noCallback moment symbol)
  | some id => discard (remove id)

/-- The result and the registry after a change that succeeds. -/
def after {α : Type} (step : Step α) (s : Scheduler) : Except Error (α × Scheduler) :=
  match step.run s with
  | (.ok a, s) => pure (a, s)
  | (.error e, _) => throw e

end Step

/-- The registry with a running interface. -/
def start (s : Scheduler) : Except Error Scheduler :=
  (Step.start.after s).map Prod.snd

/-- Stop the interface, and tell whether it ran. -/
def stop (s : Scheduler) : Bool × Scheduler :=
  (s.isRunning, { s with state := .stopped })

/-- The registry with the handled deadlines of one side. -/
def createCallbacks (s : Scheduler) (mode : DlMode) (role : Role) (handled : Handled) :
    Except Error Scheduler :=
  ((Step.createCallbacks mode role handled).after s).map Prod.snd

/-- Remove all callbacks, and tell how many there were. -/
def clear (s : Scheduler) : Nat × Scheduler :=
  ((s.buckets.toList.map List.length).sum,
    { s with buckets := Vector.replicate 14 [], users := [] })

/-- The registry with a callback for a moment of a symbol, and the symbol on which it fires. -/
def register (s : Scheduler) (moment : Moment) (symbol : Nat) :
    Except Error (Nat × Scheduler) :=
  (Step.register moment symbol).after s

/-- The registry without the callback of a number, and whether there was one. -/
def remove (s : Scheduler) (id : Nat) : Except Error (Bool × Scheduler) :=
  (Step.remove id).after s

/-- The registry without the callback of an application for a moment that fires on a symbol. -/
def removeUser (s : Scheduler) (moment : Moment) (symbol : Nat) : Except Error Scheduler :=
  ((Step.removeUser moment symbol).after s).map Prod.snd

/-! ## Ticks -/

/-- Something that takes jobs: it says whether it took one. -/
abbrev Dispatcher (σ : Type) := JobKind → SymbolEvent → StateM σ Bool

/-- What a callback is told at a moment. -/
def event (s : Scheduler) (time : AirTime) (entry : Callback) : SymbolEvent :=
  let target := s.table.mu.wrapSlot (time.slot + entry.slots)
  { mu := s.table.mu
    slot := time.slot
    symbol := time.symbol
    target
    context := rotationContext target
    kind := entry.kind
    part := entry.part
    parts := entry.parts }

/-- Hand out callbacks in order, and tell how many were taken. -/
def dispatchAll {σ : Type} (s : Scheduler) (dispatch : Dispatcher σ) (time : AirTime) :
    List Callback → StateM σ Nat
  | [] => return 0
  | entry :: rest => do
    let taken ← dispatch entry.job (s.event time entry)
    let more ← s.dispatchAll dispatch time rest
    return taken.toNat + more

/-- One symbol of time: hand out the callbacks of the symbol if the interface runs, and tell how
many were taken. -/
def tick {σ : Type} (s : Scheduler) (dispatch : Dispatcher σ) (time : AirTime) :
    StateM σ (Nat × Scheduler) := do
  let due := s.bucket time.symbol
  let counts := { s.counts with ticks := s.counts.ticks + 1 }
  if s.isRunning then
    let taken ← s.dispatchAll dispatch time due
    return (taken,
      { s with
        counts :=
          { counts with
            dispatched := counts.dispatched + taken
            refused := counts.refused + (due.length - taken) } })
  else
    return (0, { s with counts := { counts with skipped := counts.skipped + due.length } })

/-- A number of symbols of time by a clock, with the callbacks taken on each. -/
def ticks {σ : Type} (s : Scheduler) (dispatch : Dispatcher σ) (clock : AirClock) :
    Nat → StateM σ (List Nat × Scheduler × AirClock)
  | 0 => return ([], s, clock)
  | count + 1 => do
    let (taken, s) ← s.tick dispatch clock.now
    let (more, s, clock) ← s.ticks dispatch clock.tick count
    return (taken :: more, s, clock)

end Scheduler

end OpenFronthaul
