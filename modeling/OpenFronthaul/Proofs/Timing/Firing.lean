import OpenFronthaul.Proofs.Timing.Ticks
import Mathlib.Tactic

/-!
# Callbacks in turn

While the interface runs and every job is taken, a callback fires once in each slot, on its symbol
and in the order of the slots, and serves one slot after the other (`ServesInTurn`).  Slots are
counted from the start of the clock on; only what a callback is told is wrapped.

The ticks of one slot fire each callback once (`firingsOf_slot`), and those of several slots are put
together from them (`firingsOf_slots`).
-/

namespace OpenFronthaul

/-- A callback that is handed out at a moment. -/
structure Firing where
  /-- The moment. -/
  time : AirTime
  /-- The place of the callback among those of the symbol. -/
  place : ℕ
  /-- The callback. -/
  entry : Callback
deriving DecidableEq

namespace Firing

/-- The slot that is served, counted from the start of the clock. -/
def served (f : Firing) : ℤ :=
  f.time.absoluteSlot + f.entry.slots

/-- The symbols from the start of the served slot. -/
def distance (f : Firing) : ℤ :=
  symbolsPerSlot * f.time.absoluteSlot + f.time.symbol - symbolsPerSlot * f.served

end Firing

/-- The clock at a symbol of a slot shows this slot and this symbol. -/
lemma AirClock.now_startingAt {symbol : ℕ} (h : symbol < symbolsPerSlot) (mu : Numerology)
    (slot : ℕ) : (startingAt mu slot symbol).now =
      { absoluteSlot := slot, slot := mu.wrapSlot slot, symbol
        time := mu.slotTime (mu.wrapSlot slot) } := by
  rw [symbolsPerSlot] at h
  have hslot : (slot * 14 + symbol % 14) / 14 = slot := by omega
  have hsymbol : (slot * 14 + symbol % 14) % 14 = symbol := by omega
  simp only [now, startingAt, symbolsPerSlot, hslot, hsymbol]

lemma AirClock.advance_startingAt {symbol : ℕ} (h : symbol < symbolsPerSlot) (mu : Numerology)
    (slot : ℕ) : (startingAt mu slot 0).advance symbol = startingAt mu slot symbol := by
  simp [advance, startingAt, Nat.mod_eq_of_lt h]

lemma AirClock.advance_slots (mu : Numerology) (slot count : ℕ) :
    (startingAt mu slot 0).advance (symbolsPerSlot * count) = startingAt mu (slot + count) 0 := by
  simp [advance, startingAt, Nat.add_mul, Nat.mul_comm symbolsPerSlot]

namespace Scheduler

variable {σ : Type} {s : Scheduler} {symbol place : ℕ} {entry : Callback}

/-! ## Firings -/

/-- The callbacks that fire at a moment. -/
def firingsAt (s : Scheduler) (time : AirTime) : List Firing :=
  if s.isRunning then (s.bucket time.symbol).zipIdx.map fun x => ⟨time, x.2, x.1⟩ else []

/-- The callbacks that fire on a number of ticks. -/
def firings (s : Scheduler) (clock : AirClock) (n : ℕ) : List Firing :=
  (List.range n).flatMap fun i => s.firingsAt (clock.advance i).now

/-- The firings of one callback, which is given by its place on its symbol. -/
def firingsOf (s : Scheduler) (symbol place : ℕ) (clock : AirClock) (n : ℕ) : List Firing :=
  (s.firings clock n).filter fun f => f.time.symbol = symbol ∧ f.place = place

/-- What a callback is told when it fires. -/
def told (s : Scheduler) (f : Firing) : SymbolEvent :=
  s.event f.time f.entry

/-- Only callbacks of the symbol fire. -/
lemma mem_bucket_of_mem_firingsAt {time : AirTime} {f : Firing} (h : f ∈ s.firingsAt time) :
    f.time = time ∧ f.entry ∈ s.bucket f.time.symbol := by
  unfold firingsAt at h
  split_ifs at h
  · obtain ⟨x, hx, rfl⟩ := List.mem_map.mp h
    exact ⟨rfl, List.fst_mem_of_mem_zipIdx hx⟩
  · cases h

/-- While the interface runs, each callback of the symbol fires. -/
lemma exists_mem_firingsAt (hrun : s.isRunning = true) {time : AirTime}
    (h : entry ∈ s.bucket time.symbol) : ∃ f ∈ s.firingsAt time, f.entry = entry := by
  obtain ⟨place, hplace⟩ := List.mem_iff_getElem?.mp h
  rw [firingsAt, if_pos hrun]
  have hmem : (entry, place) ∈ (s.bucket time.symbol).zipIdx :=
    List.mem_zipIdx_iff_getElem?.mpr hplace
  exact ⟨_, List.mem_map_of_mem hmem, rfl⟩

/-- What is due at a moment is what fires then. -/
lemma due_eq_firingsAt (s : Scheduler) (time : AirTime) :
    s.due time = (s.firingsAt time).map fun f => (f.entry.job, s.told f) := by
  unfold due firingsAt
  cases s.isRunning with
  | true =>
    have hplain := congrArg (List.map fun entry => (entry.job, s.event time entry))
      (List.zipIdx_map_fst 0 (s.bucket time.symbol))
    rw [if_pos rfl, if_pos rfl, ← hplain, List.map_map, List.map_map]
    rfl
  | false => rfl

lemma flatMap_due (s : Scheduler) (clock : AirClock) (n : ℕ) :
    ((List.range n).flatMap fun i => s.due (clock.advance i).now) =
      (s.firings clock n).map fun f => (f.entry.job, s.told f) := by
  simp only [due_eq_firingsAt, firings, List.map_flatMap]

lemma firingsOf_add (s : Scheduler) (symbol place : ℕ) (clock : AirClock) (m n : ℕ) :
    s.firingsOf symbol place clock (m + n) =
      s.firingsOf symbol place clock m ++ s.firingsOf symbol place (clock.advance m) n := by
  simp only [firingsOf, firings, List.range_add, List.flatMap_append, List.flatMap_map,
    List.filter_append, AirClock.advance_advance]

/-! ## One callback -/

/-- Among numbered entries the one of a number is the entry of its place. -/
lemma filter_zipIdx {α : Type} {xs : List α} {x : α} (h : xs[place]? = some x) (first : ℕ) :
    (xs.zipIdx first).filter (·.2 = first + place) = [(x, first + place)] := by
  induction xs generalizing first place with
  | nil => cases h
  | cons y ys ih =>
    rw [List.zipIdx_cons]
    cases place with
    | zero =>
      obtain rfl : y = x := by simpa using h
      -- the numbers behind the first one are greater
      have hrest : (ys.zipIdx (first + 1)).filter (·.2 = first) = [] := by
        refine List.filter_eq_nil_iff.mpr ?_
        rintro ⟨z, i⟩ hz
        have hle : first + 1 ≤ i := List.le_snd_of_mem_zipIdx hz
        have hne : i ≠ first := by omega
        simpa using hne
      simp [hrest]
    | succ place =>
      have htail := ih (by simpa using h) (first + 1)
      have hnumber : first + 1 + place = first + (place + 1) := by omega
      rw [hnumber] at htail
      rw [List.filter_cons_of_neg (by simp), htail]

/-- A callback fires at the moments of its symbol. -/
lemma filter_firingsAt (hrun : s.isRunning = true) (h : (s.bucket symbol)[place]? = some entry)
    (time : AirTime) :
    (s.firingsAt time).filter (fun f => f.time.symbol = symbol ∧ f.place = place) =
      if time.symbol = symbol then [⟨time, place, entry⟩] else [] := by
  rw [firingsAt, if_pos hrun, List.filter_map]
  split_ifs with hsymbol
  · have hone := filter_zipIdx h 0
    rw [Nat.zero_add] at hone
    simp only [Function.comp_def, hsymbol, true_and, hone, List.map_singleton]
  · simp [Function.comp_def, hsymbol]

/-- Whenever the clock is on the symbol of a callback, and only then, the callback fires. -/
theorem firingsOf_eq (hrun : s.isRunning = true) (h : (s.bucket symbol)[place]? = some entry)
    (clock : AirClock) (n : ℕ) : s.firingsOf symbol place clock n =
      ((List.range n).filter fun i => (clock.advance i).now.symbol = symbol).map fun i =>
        ⟨(clock.advance i).now, place, entry⟩ := by
  rw [firingsOf, firings, List.filter_flatMap]
  simp only [filter_firingsAt hrun h]
  induction List.range n with
  | nil => rfl
  | cons i rest ih =>
    rw [List.flatMap_cons, ih]
    by_cases hsymbol : (clock.advance i).now.symbol = symbol <;> simp [hsymbol]

/-- Within the ticks of a slot a callback fires once. -/
theorem firingsOf_slot (hrun : s.isRunning = true) (h : (s.bucket symbol)[place]? = some entry)
    (mu : Numerology) (slot : ℕ) :
    s.firingsOf symbol place (.startingAt mu slot 0) symbolsPerSlot =
      [⟨(AirClock.startingAt mu slot symbol).now, place, entry⟩] := by
  have hlt : symbol < symbolsPerSlot := lt_of_mem_bucket (List.mem_of_getElem? h)
  have htick : (List.range symbolsPerSlot).filter
      (fun i => ((AirClock.startingAt mu slot 0).advance i).now.symbol = symbol) = [symbol] := by
    have hfilter : (List.range symbolsPerSlot).filter
        (fun i => ((AirClock.startingAt mu slot 0).advance i).now.symbol = symbol) =
          (List.range symbolsPerSlot).filter (· = symbol) := by
      refine List.filter_congr fun i hi => ?_
      have hi := List.mem_range.mp hi
      rw [AirClock.advance_startingAt hi, AirClock.now_startingAt hi]
    rw [hfilter, filter_eq_range, if_pos hlt]
  rw [firingsOf_eq hrun h, htick, List.map_singleton, AirClock.advance_startingAt hlt]

/-- Within the ticks of a number of slots a callback fires once in each of them, in order. -/
theorem firingsOf_slots (hrun : s.isRunning = true) (h : (s.bucket symbol)[place]? = some entry)
    (mu : Numerology) (slot count : ℕ) :
    s.firingsOf symbol place (.startingAt mu slot 0) (symbolsPerSlot * count) =
      (List.range count).map fun j =>
        ⟨(AirClock.startingAt mu (slot + j) symbol).now, place, entry⟩ := by
  induction count with
  | zero => rfl
  | succ count ih =>
    rw [Nat.mul_succ, firingsOf_add, ih, AirClock.advance_slots, firingsOf_slot hrun h,
      List.range_succ, List.map_append, List.map_singleton]

/-! ## Slots in turn -/

/-- What a callback is told in a slot: the slot and the one that it serves are wrapped. -/
def eventIn (s : Scheduler) (symbol : ℕ) (entry : Callback) (slot : ℕ) : SymbolEvent :=
  let target := s.table.mu.wrapSlot (slot + entry.slots)
  { mu := s.table.mu
    slot := s.table.mu.wrapSlot slot
    symbol
    target
    context := UInt8.ofNat (target % 4)
    kind := entry.kind
    part := entry.part
    parts := entry.parts }

/-- A callback serves slots in turn: these are its firings on the ticks of a number of slots from
the given one on. -/
structure ServesInTurn (s : Scheduler) (symbol : ℕ) (entry : Callback) (slot count : ℕ)
    (own : List Firing) : Prop where
  /-- It fires once in each slot, on its symbol. -/
  times_eq : own.map Firing.time =
    (List.range count).map fun j => (AirClock.startingAt s.table.mu (slot + j) symbol).now
  entry_eq : ∀ f ∈ own, f.entry = entry
  told_eq : own.map s.told = (List.range count).map fun j => s.eventIn symbol entry (slot + j)
  /-- It fires the same number of symbols from the start of each slot that it serves. -/
  distance_eq : ∀ f ∈ own, (s.told f).target = s.table.mu.wrapSlot f.served ∧
    f.distance = (SymbolOffset.mk symbol entry.slots).position
  /-- No slot is left out. -/
  targets_eq : own.map (fun f => (s.told f).target) = (List.range count).map fun j =>
    (s.table.mu.wrapSlot (slot + entry.slots) + j) % s.table.mu.slotsPerSecond
  /-- Within the slots of a second none is served twice. -/
  targets_nodup : count ≤ s.table.mu.slotsPerSecond →
    (own.map fun f => (s.told f).target).Nodup

lemma told_startingAt (h : symbol < symbolsPerSlot) (s : Scheduler) (place : ℕ) (entry : Callback)
    (slot : ℕ) : s.told ⟨(AirClock.startingAt s.table.mu slot symbol).now, place, entry⟩ =
      s.eventIn symbol entry slot := by
  rw [AirClock.now_startingAt h, told, event, wrapSlot_wrapSlot_add]
  rfl

lemma target_eventIn (s : Scheduler) (symbol : ℕ) (entry : Callback) (slot j : ℕ) :
    (s.eventIn symbol entry (slot + j)).target =
      (s.table.mu.wrapSlot (slot + entry.slots) + j) % s.table.mu.slotsPerSecond := by
  have hsum : ((slot + j : ℕ) : ℤ) + entry.slots = slot + entry.slots + j := by
    push_cast
    ring
  rw [eventIn, hsum, ← wrapSlot_wrapSlot_add]
  rfl

/-- Slots that are counted modulo a period are different within a period. -/
lemma nodup_counted {first count period : ℕ} (h : count ≤ period) :
    ((List.range count).map fun j => (first + j) % period).Nodup := by
  refine List.Nodup.map_on ?_ List.nodup_range
  intro i hi j hj heq
  have hi := List.mem_range.mp hi
  have hj := List.mem_range.mp hj
  have hmod : i ≡ j [MOD period] := Nat.ModEq.add_left_cancel' first heq
  exact hmod.eq_of_lt_of_lt (by omega) (by omega)

theorem servesInTurn (hrun : s.isRunning = true) (h : (s.bucket symbol)[place]? = some entry)
    (slot count : ℕ) : s.ServesInTurn symbol entry slot count
      (s.firingsOf symbol place (.startingAt s.table.mu slot 0) (symbolsPerSlot * count)) := by
  have hlt : symbol < symbolsPerSlot := lt_of_mem_bucket (List.mem_of_getElem? h)
  have htold := told_startingAt hlt s place entry
  rw [firingsOf_slots hrun h]
  have htargets : ((List.range count).map fun j =>
      (⟨(AirClock.startingAt s.table.mu (slot + j) symbol).now, place, entry⟩ : Firing)).map
        (fun f => (s.told f).target) = (List.range count).map fun j =>
          (s.table.mu.wrapSlot (slot + entry.slots) + j) % s.table.mu.slotsPerSecond := by
    rw [List.map_map]
    exact List.map_congr_left fun j _ =>
      (congrArg SymbolEvent.target (htold _)).trans (target_eventIn ..)
  refine ⟨?_, ?_, ?_, ?_, htargets, ?_⟩
  · simp
  · intro f hf
    obtain ⟨j, -, rfl⟩ := List.mem_map.mp hf
    rfl
  · rw [List.map_map]
    exact List.map_congr_left fun j _ => htold _
  · intro f hf
    obtain ⟨j, -, rfl⟩ := List.mem_map.mp hf
    rw [htold, Firing.distance, Firing.served, AirClock.now_startingAt hlt, SymbolOffset.position]
    refine ⟨rfl, ?_⟩
    ring
  · intro hcount
    rw [htargets]
    exact nodup_counted hcount

/-- While an interface runs whose jobs are all taken, the ticks of a number of slots hand out the
firings of these slots, and every callback serves slots in turn. -/
theorem ticks_serveInTurn {dispatch : Dispatcher σ} {note : σ → JobKind → SymbolEvent → σ}
    (htakes : Takes dispatch note) (hrun : s.isRunning = true) (slot count : ℕ) (memory : σ) :
    let clock := AirClock.startingAt s.table.mu slot 0
    let n := symbolsPerSlot * count
    (s.ticks dispatch clock n).run memory =
      (((List.range n).map fun i => (s.firingsAt (clock.advance i).now).length,
          s.afterTicks clock n, AirClock.startingAt s.table.mu (slot + count) 0),
        (s.firings clock n).foldl (fun memory f => note memory f.entry.job (s.told f)) memory) ∧
    (s.afterTicks clock n).isRunning = true ∧
    ∀ symbol place entry, (s.bucket symbol)[place]? = some entry →
      s.ServesInTurn symbol entry slot count (s.firingsOf symbol place clock n) := by
  intro clock n
  refine ⟨?_, ?_, ?_⟩
  · rw [run_ticks_of_takes htakes, flatMap_due, List.foldl_map, AirClock.advance_slots]
    simp only [due_eq_firingsAt, List.length_map]
  · rw [isRunning_afterTicks, hrun]
  · intro symbol place entry hentry
    exact servesInTurn hrun hentry slot count

namespace OverWrap

/-- A distributed unit that runs. -/
def scheduler : Scheduler :=
  { ((Step.createCallbacks .burst .distributedUnit
      { dlControl := true, ulArrival := true }).run (.create .khz30 {})).2 with state := .running }

/-- A dispatcher that takes every job and keeps a list of them. -/
def record : Dispatcher (List SymbolEvent) := fun _ event => do
  modify (· ++ [event])
  return true

/-- Downlink control messages are for the next slot, and uplink data is of the one before, also
where slots are counted anew. -/
theorem ticks_serveInTurn_overWrap :
    scheduler.isRunning = true ∧
      ((scheduler.ticks record (.startingAt .khz30 1999 0) (14 * 2)).run []).2.map
        (fun event => (event.slot, event.symbol, event.target)) =
          [(1999, 2, 0), (1999, 3, 1998), (1999, 10, 1999), (0, 2, 1), (0, 3, 1999), (0, 10, 0)] ∧
      (scheduler.firingsOf 3 0 (.startingAt .khz30 1999 0) (14 * 2)).map
        (fun f => (scheduler.told f).target) = [1998, 1999] := by
  have htakes : Takes record fun events _ event => events ++ [event] := fun _ _ _ => rfl
  obtain ⟨hticks, -, hturn⟩ :=
    ticks_serveInTurn htakes (show scheduler.isRunning = true from rfl) 1999 2 []
  refine ⟨rfl, ?_, ?_⟩
  · have hevents := congrArg Prod.snd hticks
    exact (congrArg (List.map _) hevents).trans (by decide)
  · exact (hturn 3 0 _ rfl).targets_eq.trans (by decide)

end OverWrap

end Scheduler

end OpenFronthaul
