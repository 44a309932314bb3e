import OpenFronthaul.Emulation.Run
import OpenFronthaul.Proofs.Timing.Ticks

/-!
# The start of a run

A run starts when its configuration gives a plan and its downlink control messages are in at most as
many parts as there may be.  It starts with empty buckets and with the deadlines of its side
(`create_eq_ok`).
-/

namespace OpenFronthaul

open Scheduler (Deadline)

/-- The deadlines that someone handles in a run. -/
def Run.handled : Handled :=
  { dlControl := true, ulControl := true, ulArrival := true }

/-- The deadlines of a run in the order in which they are registered. -/
def Config.deadlines (config : Config) : List Deadline :=
  Scheduler.deadlines (.derive config.budget config.mu) config.dlMode config.role Run.handled

namespace Run

variable {config : Config} {start : Run}

/-- A run that has a plan, at its start. -/
def fresh (config : Config) (plan : Plan) (store : SectionStore) : Run where
  plan
  scheduler := (Scheduler.create config.mu config.budget).withRunning config.deadlines
  clock := ⟨config.mu, 0⟩
  producer :=
    { store
      settings :=
        { mu := config.mu, tagging := config.tagging, framer := plan.framer, frame := plan.frame
          mtu := config.mtu } }
  radio := { store }

lemma createCallbacks_eq_ok {mu : Numerology} {budget : DelayBudget} {mode : DlMode} {role : Role}
    {handled : Handled} {s : Scheduler} :
    (Scheduler.create mu budget).createCallbacks mode role handled = .ok s ↔
      ¬Scheduler.Step.Overlong (.derive budget mu) mode role handled ∧
        s = (Scheduler.create mu budget).withDeadlines
          (Scheduler.deadlines (.derive budget mu) mode role handled) := by
  have hrun : (Scheduler.create mu budget).isRunning = false := rfl
  have htable : (Scheduler.create mu budget).table = .derive budget mu := rfl
  rw [Scheduler.createCallbacks, Scheduler.Step.after, Scheduler.Step.run_createCallbacks, htable,
    if_neg (by rw [hrun]; exact Bool.false_ne_true)]
  split_ifs with hlong
  · constructor
    · intro h
      cases h
    · rintro ⟨hshort, -⟩
      exact absurd hlong hshort
  · constructor
    · intro h
      exact ⟨hlong, (Except.ok.inj h).symm⟩
    · rintro ⟨-, rfl⟩
      rfl

lemma start_withDeadlines (mu : Numerology) (budget : DelayBudget) (ds : List Deadline) :
    ((Scheduler.create mu budget).withDeadlines ds).start =
      .ok ((Scheduler.create mu budget).withRunning ds) := by
  have hrun : ((Scheduler.create mu budget).withDeadlines ds).isRunning = false := by
    have hstate (s : Scheduler) : (s.withDeadlines ds).state = s.state := by
      induction ds generalizing s with
      | nil => rfl
      | cons d ds ih => exact ih (s.withCallback d.offset d.kind d.job d.part d.parts)
    rw [Scheduler.isRunning, hstate]
    rfl
  rw [Scheduler.start, Scheduler.Step.after, Scheduler.Step.run_start, hrun]
  rfl

theorem create_eq_ok : Run.create config = .ok start ↔
    ∃ plan store, Plan.create config = .ok plan ∧ plan.emptyStore = .ok store ∧
      ¬Scheduler.Step.Overlong (.derive config.budget config.mu) config.dlMode config.role handled ∧
      start = fresh config plan store := by
  simp only [Run.create, bind_eq_ok, pure_eq_ok, createCallbacks_eq_ok]
  constructor
  · rintro ⟨plan, hplan, store, hstore, _, ⟨hshort, rfl⟩, s, hs, rfl⟩
    rw [start_withDeadlines] at hs
    obtain rfl := Except.ok.inj hs
    exact ⟨plan, store, hplan, hstore, hshort, rfl⟩
  · rintro ⟨plan, store, hplan, hstore, hshort, rfl⟩
    exact ⟨plan, hplan, store, hstore, _, ⟨hshort, rfl⟩, _, start_withDeadlines _ _ _, rfl⟩

/-- What is due at a moment of a run. -/
theorem due_fresh (config : Config) (plan : Plan) (store : SectionStore) (time : AirTime) :
    (fresh config plan store).scheduler.due time =
      (config.deadlines.filter (·.offset.symbol = time.symbol)).map fun d =>
        (d.job, (Scheduler.create config.mu config.budget).event time (d.callback 0)) :=
  Scheduler.due_withRunning _
    (fun _ hd => (Scheduler.sound_deadlines _ _ _ _ _ hd).symbol_lt)
    (fun _ => Scheduler.bucket_create _ _) time

/-- Every job of a run is given to the workers of its kind. -/
lemma job_of_mem_due {plan : Plan} {store : SectionStore} {time : AirTime}
    {x : JobKind × SymbolEvent} (h : x ∈ (fresh config plan store).scheduler.due time) :
    x.1 = Scheduler.workFor x.2.kind := by
  rw [due_fresh] at h
  obtain ⟨d, hd, rfl⟩ := List.mem_map.mp h
  exact (Scheduler.sound_deadlines _ _ _ _ _ (List.mem_filter.mp hd).1).job_eq

end Run

end OpenFronthaul
