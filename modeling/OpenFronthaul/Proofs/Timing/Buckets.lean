import OpenFronthaul.Timing.Scheduler
import OpenFronthaul.Proofs.Steps
import Mathlib.Tactic

/-!
# Buckets of callbacks

The callbacks of a scheduler are spread over the symbols of a slot.  This file says what happens to
the bucket of a symbol, and to the list of all callbacks, when the callbacks of one symbol are
replaced, and how the deadlines of one side come to be registered.
-/

namespace OpenFronthaul

namespace Scheduler

variable {s : Scheduler} {symbol other : Nat} {entry : Callback}

/-- All registered callbacks, symbol by symbol. -/
def live (s : Scheduler) : List Callback :=
  s.buckets.toList.flatten

/-! ## Reading -/

theorem bucket_eq_get (h : symbol < 14) :
    s.bucket symbol = s.buckets.toList.get ⟨symbol, by simpa using h⟩ := by
  simp [bucket, h]

theorem bucket_of_le (h : 14 ≤ symbol) : s.bucket symbol = [] := by
  simp [bucket, h]

theorem lt_of_mem_bucket (h : entry ∈ s.bucket symbol) : symbol < 14 := by
  by_contra hge
  simp [bucket_of_le (Nat.le_of_not_lt hge)] at h

theorem mem_live : entry ∈ s.live ↔ ∃ symbol, entry ∈ s.bucket symbol := by
  simp only [live, List.mem_flatten, List.mem_iff_getElem (l := s.buckets.toList)]
  constructor
  · rintro ⟨_, ⟨symbol, h, rfl⟩, hmem⟩
    refine ⟨symbol, ?_⟩
    rwa [bucket_eq_get (by simpa using h)]
  · rintro ⟨symbol, hmem⟩
    have h := lt_of_mem_bucket hmem
    rw [bucket_eq_get h] at hmem
    exact ⟨_, ⟨symbol, by simpa using h, rfl⟩, hmem⟩

theorem length_live : s.live.length = (s.buckets.toList.map List.length).sum := by
  simp [live]

@[simp] theorem bucket_create (mu : Numerology) (budget : DelayBudget) :
    (create mu budget).bucket symbol = [] := by
  by_cases h : symbol < 14
  · simp [create, bucket, h]
  · exact bucket_of_le (Nat.le_of_not_lt h)

/-! ## Replacing the callbacks of a symbol -/

theorem bucket_setBucket_self (h : symbol < 14) (bucket : List Callback) :
    (s.setBucket symbol bucket).bucket symbol = bucket := by
  simp [setBucket, Scheduler.bucket, h]

theorem bucket_setBucket_of_ne (h : symbol ≠ other) (bucket : List Callback) :
    (s.setBucket symbol bucket).bucket other = s.bucket other := by
  simp [setBucket, Scheduler.bucket, Vector.getElem?_setIfInBounds_ne h]

/-- The callbacks of a symbol stand beside those of the others. -/
theorem exists_live_perm (s : Scheduler) (h : symbol < 14) :
    ∃ others, s.live.Perm (s.bucket symbol ++ others) ∧
      ∀ bucket, (s.setBucket symbol bucket).live.Perm (bucket ++ others) := by
  have hlt : symbol < s.buckets.toList.length := by simpa
  refine ⟨(s.buckets.toList.eraseIdx symbol).flatten, ?_, ?_⟩
  · rw [bucket_eq_get h]
    exact (List.getElem_cons_eraseIdx_perm hlt).flatten.symm
  · intro bucket
    have hset : symbol < (s.buckets.toList.set symbol bucket).length := by simpa
    have hperm := (List.getElem_cons_eraseIdx_perm hset).flatten.symm
    rw [List.getElem_set_self, List.eraseIdx_set_eq] at hperm
    simpa [live, setBucket] using hperm

/-! ## One more callback -/

theorem bucket_withCallback (s : Scheduler) {offset : SymbolOffset} (h : offset.symbol < 14)
    (kind : CallbackKind) (job : JobKind) (part parts symbol : Nat) :
    (s.withCallback offset kind job part parts).bucket symbol = s.bucket symbol ++
      if offset.symbol = symbol then
        [{ id := s.nextId, kind, job, slots := offset.slots, part, parts }] else [] := by
  by_cases heq : offset.symbol = symbol
  · subst heq
    rw [if_pos rfl]
    exact bucket_setBucket_self h _
  · rw [if_neg heq, List.append_nil]
    exact bucket_setBucket_of_ne heq _

theorem live_withCallback (s : Scheduler) {offset : SymbolOffset} (h : offset.symbol < 14)
    (kind : CallbackKind) (job : JobKind) (part parts : Nat) :
    (s.withCallback offset kind job part parts).live.Perm
      ({ id := s.nextId, kind, job, slots := offset.slots, part, parts } :: s.live) := by
  obtain ⟨others, hlive, hset⟩ := s.exists_live_perm h
  refine (hset _).trans ?_
  rw [List.append_assoc, List.singleton_append]
  exact List.perm_middle.trans (hlive.symm.cons _)

/-! ## Registering the deadlines of one side -/

/-- A callback that is to be registered. -/
structure Deadline where
  /-- When it fires. -/
  offset : SymbolOffset
  /-- What it is for. -/
  kind : CallbackKind
  /-- The kind of work that it hands out. -/
  job : JobKind
  /-- The part of the work. -/
  part : Nat := 0
  /-- The number of parts. -/
  parts : Nat := 1

/-- The registry with more callbacks. -/
def withDeadlines (s : Scheduler) (deadlines : List Deadline) : Scheduler :=
  deadlines.foldl (fun s d => s.withCallback d.offset d.kind d.job d.part d.parts) s

theorem withDeadlines_append (s : Scheduler) (ds es : List Deadline) :
    s.withDeadlines (ds ++ es) = (s.withDeadlines ds).withDeadlines es :=
  List.foldl_append

/-- The parts of the downlink control messages on their symbols. -/
def dlDeadlines (table : DeadlineTable) : DlMode → List Deadline
  | .burst => [⟨table.dlControl, .dlControl, .dlControl, 0, 1⟩]
  | .spread =>
    (table.dlControlSpread.zipIdx).map fun (offset, part) =>
      ⟨offset, .dlControl, .dlControl, part, table.dlControlSpread.length⟩

/-- Deadlines that are registered if someone handles them. -/
def ifHandled (handled : Bool) (deadlines : List Deadline) : List Deadline :=
  if handled then deadlines else []

/-- The handled deadlines of one side in the order in which they are registered. -/
def deadlines (table : DeadlineTable) (mode : DlMode) (role : Role) (handled : Handled) :
    List Deadline :=
  match role with
  | .distributedUnit =>
    ifHandled handled.dlControl (dlDeadlines table mode) ++
      (ifHandled handled.ulControl [⟨table.ulControl, .ulControl, .ulControl, 0, 1⟩] ++
        ifHandled handled.ulArrival [⟨table.ulFull, .ulArrived, .deadline, 0, 1⟩,
          ⟨table.ulHalf, .ulHalfArrived, .deadline, 0, 1⟩])
  | .radioUnit =>
    ifHandled handled.radioUlSend [⟨table.radioUlSend, .radioUlSend, .deadline, 0, 1⟩] ++
      ifHandled handled.radioDlArrival [⟨table.radioDlArrival, .radioDlArrived, .deadline, 0, 1⟩]

namespace Step

theorem run_checkStopped (s : Scheduler) :
    checkStopped.run s = (if s.isRunning then .error .callbacksFixed else .ok (), s) := by
  unfold checkStopped
  rw [run_bind, run_get]
  by_cases h : s.isRunning
  · simp only [h, if_true]
    rfl
  · simp only [h]
    rfl

/-- A step that registers callbacks and does nothing else. -/
def Adds (step : Step Unit) (deadlines : List Deadline) : Prop :=
  ∀ s, step.run s = (.ok (), s.withDeadlines deadlines)

theorem adds_pushWhole (offset : SymbolOffset) (kind : CallbackKind) (job : JobKind) :
    Adds (pushWhole offset kind job) [⟨offset, kind, job, 0, 1⟩] := fun _ => rfl

theorem Adds.bind {x y : Step Unit} {ds es : List Deadline} (hx : Adds x ds) (hy : Adds y es) :
    Adds (x >>= fun _ => y) (ds ++ es) := by
  intro s
  rw [run_bind, hx s]
  exact (hy _).trans (by rw [withDeadlines_append])

theorem Adds.whenHandled {x : Step Unit} {ds : List Deadline} (hx : Adds x ds) (handled : Bool) :
    Adds (whenHandled handled x) (ifHandled handled ds) := by
  cases handled with
  | true => exact hx
  | false => exact fun _ => rfl

theorem adds_pushParts (parts part : Nat) (offsets : List SymbolOffset) :
    Adds (pushParts parts part offsets)
      ((offsets.zipIdx part).map fun (offset, part) =>
        ⟨offset, .dlControl, .dlControl, part, parts⟩) := by
  induction offsets generalizing part with
  | nil => exact fun _ => rfl
  | cons offset rest ih =>
    have hpush : Adds (discard (push offset .dlControl .dlControl part parts))
        [⟨offset, .dlControl, .dlControl, part, parts⟩] := fun _ => rfl
    exact hpush.bind (ih (part + 1))

theorem run_pushDl (table : DeadlineTable) (mode : DlMode) (s : Scheduler) :
    (pushDl table mode).run s =
      if mode = .spread ∧ 255 < table.dlControlSpread.length then
        (.error (.spreadParts table.dlControlSpread.length), s)
      else (.ok (), s.withDeadlines (dlDeadlines table mode)) := by
  cases mode with
  | burst => rfl
  | spread =>
    by_cases h : 255 < table.dlControlSpread.length
    · simp only [pushDl, h, and_self, if_true]
      rfl
    · simp only [pushDl, h, and_false, if_false]
      exact adds_pushParts _ 0 _ s

/-- Whether the downlink control messages are to be registered in more parts than there may be. -/
def Overlong (table : DeadlineTable) (mode : DlMode) (role : Role) (handled : Handled) : Prop :=
  role = .distributedUnit ∧ handled.dlControl = true ∧ mode = .spread ∧
    255 < table.dlControlSpread.length

instance (table : DeadlineTable) (mode : DlMode) (role : Role) (handled : Handled) :
    Decidable (Overlong table mode role handled) :=
  inferInstanceAs (Decidable (_ ∧ _ ∧ _ ∧ _))

/-- The deadlines of one side are registered as a whole or not at all. -/
theorem run_createCallbacks (mode : DlMode) (role : Role) (handled : Handled) (s : Scheduler) :
    (createCallbacks mode role handled).run s =
      if s.isRunning then (.error .callbacksFixed, s)
      else if Overlong s.table mode role handled then
        (.error (.spreadParts s.table.dlControlSpread.length), s)
      else (.ok (), s.withDeadlines (deadlines s.table mode role handled)) := by
  unfold createCallbacks
  rw [run_bind, run_checkStopped]
  by_cases hrun : s.isRunning
  · simp only [hrun, if_true]
  · simp only [hrun, if_false, Bool.false_eq_true]
    rw [run_bind, run_get]
    cases role with
    | distributedUnit =>
      have hrest := ((adds_pushWhole s.table.ulControl .ulControl .ulControl).whenHandled
        handled.ulControl).bind (((adds_pushWhole s.table.ulFull .ulArrived .deadline).bind
          (adds_pushWhole s.table.ulHalf .ulHalfArrived .deadline)).whenHandled handled.ulArrival)
      cases hdl : handled.dlControl with
      | true =>
        simp only [Overlong, hdl, true_and, deadlines]
        rw [run_bind, show whenHandled true (pushDl s.table mode) = pushDl s.table mode from rfl,
          run_pushDl]
        by_cases hlong : mode = .spread ∧ 255 < s.table.dlControlSpread.length
        · simp only [if_pos hlong]
        · simp only [if_neg hlong]
          exact (hrest _).trans (congrArg (Prod.mk _) (withDeadlines_append s _ _).symm)
      | false =>
        simp only [Overlong, hdl, deadlines, false_and, and_false, if_false, Bool.false_eq_true]
        exact hrest s
    | radioUnit =>
      simp only [Overlong, reduceCtorEq, false_and, if_false]
      exact ((adds_pushWhole s.table.radioUlSend .radioUlSend .deadline).whenHandled
        handled.radioUlSend).bind ((adds_pushWhole s.table.radioDlArrival .radioDlArrived
          .deadline).whenHandled handled.radioDlArrival) s

theorem run_start (s : Scheduler) :
    start.run s = (if s.isRunning then .error .alreadyRunning else .ok (),
      { s with state := .running }) := by
  by_cases h : s.isRunning
  · simp only [start, run_bind, run_get, h, if_true]
    rfl
  · simp only [start, run_bind, run_get, h]
    rfl

end Step

end Scheduler

end OpenFronthaul
