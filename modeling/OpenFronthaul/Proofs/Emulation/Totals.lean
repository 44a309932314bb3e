import OpenFronthaul.Proofs.Config.Valid
import OpenFronthaul.Proofs.Emulation.Counting
import OpenFronthaul.Proofs.Emulation.Reception
import OpenFronthaul.Proofs.Emulation.Stock

/-!
# The totals of a run

A valid configuration for paired spectrum that can do its work starts (`Run.exists_create`), and
then nothing fails: every job finds room for its part, and every packet is received with its section
(`Crew.Tallied`).  So when nothing is left to do after a number of slots, the counts of both sides
are products of what the configuration says (`Crew.totals_of_idle`), in however many parts the
downlink is built.  A configuration that was read from a text is valid, so that its run has these
totals when the leads of its downlink fit their bits (`Config.run_totals`).  Leads that do not fit
wrap around, and then the downlink is built in another number of parts; and a configuration that was
not read from a text may have weights, which the radio unit cannot read without their number
(`Config.totals_differ_outside`).
-/

namespace OpenFronthaul

/-! ## The start -/

namespace Run

variable {config : Config} {start : Run}

/-- The radio unit can follow the plan of a valid configuration. -/
lemma legible_of_create (hvalid : config.Valid) (hfeasible : config.Feasible)
    (h : Run.create config = .ok start) : start.plan.Legible := by
  obtain ⟨-, -, hlayout, hmap⟩ := Config.validate_eq_ok hvalid.validate_eq
  have hpairs := (Crew.ready_of_create hfeasible h).pairs
  refine ⟨?_, fun d => ?_, fun d => ?_, fun d => ?_⟩
  · have hframer : start.plan.framer = ⟨config.layout, 0, 0⟩ :=
      congrArg ProducerSettings.framer hpairs.settings_eq
    rw [EaxcLayout.validate, guard_eq_ok] at hlayout
    rw [hframer]
    exact Nat.le_of_not_lt hlayout.1
  · obtain ⟨map, hmap⟩ := hmap d
    rw [hpairs.map_eq, ← Config.map_eq hmap]
    exact (PrbMap.create_eq_ok hmap).2
  · rw [hpairs.map_eq]
    exact hvalid.weightless d
  · rw [hpairs.map_eq]
    exact hfeasible.elements_le d

end Run

namespace Crew

variable {config : Config} {start : Run} {crew : Crew} {n : ℕ}

/-! ## What was counted -/

/-- Everything that was built was sent, and everything that was sent is received or under way. -/
structure Tallied (start : Run) (crew : Crew) : Prop where
  packets_eq : crew.run.producer.counts.packets = start.plan.loads crew.done
  sections_eq : crew.run.producer.counts.sections = crew.run.producer.counts.packets
  sent : ∀ wire ∈ crew.run.queue, ∃ d, start.plan.IsSent d wire
  received_eq : crew.run.radio.counts.packets + crew.run.queue.length =
    crew.run.producer.counts.packets
  sound : crew.run.radio.Sound start.plan
  ulDeadlines_eq : crew.run.ulDeadlines = (crew.done .deadline).length

namespace Tallied

lemma ofRun (h : Run.create config = .ok start) : Tallied start (ofRun start) := by
  obtain ⟨plan, store, -, hstore, -, rfl⟩ := Run.create_eq_ok.mp h
  obtain ⟨hcarriers, hantennas, hcapacity⟩ := Plan.shape_emptyStore hstore
  exact ⟨rfl, rfl, nofun, rfl, ⟨hcarriers, hantennas, hcapacity, rfl, rfl⟩, rfl⟩

lemma tick (h : Tallied start crew) : Tallied start crew.tick := by
  rw [tick_eq]
  exact ⟨h.packets_eq, h.sections_eq, h.sent, h.received_eq, h.sound, h.ulDeadlines_eq⟩

/-- A packet that is received is no longer under way. -/
lemma receive (h : Tallied start crew) (hplan : crew.run.plan = start.plan)
    (hlegible : start.plan.Legible) : Tallied start crew.receive := by
  have hreceived := h.received_eq
  have hsent := h.sent
  unfold Crew.receive Run.receiveNext
  cases hqueue : crew.run.queue with
  | nil => exact h
  | cons packet queue =>
    rw [hqueue] at hreceived hsent
    obtain ⟨⟨d, hpacket⟩, hrest⟩ := List.forall_mem_cons.mp hsent
    obtain ⟨hsound, hcounted⟩ := RadioUnit.sound_receive hlegible h.sound hpacket
    rw [← hplan] at hsound hcounted
    refine ⟨h.packets_eq, h.sections_eq, hrest, ?_, ?_, h.ulDeadlines_eq⟩
    · rw [List.length_cons] at hreceived
      dsimp only
      omega
    · rw [← hplan]
      exact hsound

/-- A job sends a packet for every element of its part and every flow. -/
lemma work (h : Tallied start crew) (hstocked : Stocked start crew) (hfeasible : config.Feasible)
    (hcreate : Run.create config = .ok start) (htime : OnTime start n crew) (kind : JobKind) :
    Tallied start (crew.work kind) := by
  have hworks := works_work hfeasible.role_eq hcreate htime kind
  generalize crew.work kind = after at hworks
  cases hworks with
  | rests => exact h
  | @builds d job rest hwaiting =>
    have hserves := hstocked.serves hfeasible hcreate htime hwaiting
    rw [← htime.plan_eq] at hserves
    have hlength := hserves.length_sent
    refine ⟨hserves.packets.trans ?_, ?_, ?_, ?_, h.sound, ?_⟩
    · rw [htime.plan_eq] at hlength ⊢
      rw [h.packets_eq, hlength]
      exact (start.plan.loads_update_work d crew.done job).symm
    · exact hserves.sections.trans ((congrArg (· + _) h.sections_eq).trans hserves.packets.symm)
    · refine List.forall_mem_append.mpr ⟨h.sent, fun wire hwire => ⟨d, ?_⟩⟩
      rw [← htime.plan_eq]
      exact hserves.isSent wire hwire
    · refine Eq.trans ?_ hserves.packets.symm
      rw [← h.received_eq, Nat.add_assoc, ← List.length_append]
      rfl
    · have hother : JobKind.deadline ≠ d.work := by cases d <;> decide
      dsimp only
      rw [done_perform_of_ne crew d.work job rest hother]
      exact h.ulDeadlines_eq
  | @passes job rest hwaiting =>
    refine ⟨?_, h.sections_eq, h.sent, h.received_eq, h.sound, ?_⟩
    · rw [h.packets_eq]
      exact (start.plan.loads_update_deadline crew.done _).symm
    · dsimp only
      rw [done_perform_self, List.length_append, h.ulDeadlines_eq]
      rfl

/-- However jobs and packets interleave, nothing is lost and nothing fails. -/
theorem play (h : Tallied start crew) (hstocked : Stocked start crew) (hfeasible : config.Feasible)
    (hvalid : config.Valid) (hcreate : Run.create config = .ok start) (htime : OnTime start n crew)
    (actions : List Action) : Tallied start (crew.play actions) := by
  have hlegible := Run.legible_of_create hvalid hfeasible hcreate
  induction actions generalizing n crew with
  | nil => exact h
  | cons action actions ih =>
    cases action with
    | tick => exact ih h.tick hstocked.tick htime.tick
    | work kind =>
      exact ih (h.work hstocked hfeasible hcreate htime kind)
        (hstocked.work hfeasible hcreate htime kind) (htime.work kind)
    | receive => exact ih (h.receive htime.plan_eq hlegible) hstocked.receive htime.receive

end Tallied

end Crew

/-! ## The outcome -/

namespace Crew

variable {config : Config} {start : Run}

end Crew

namespace Config

variable {config : Config}

/-- The configuration with the downlink of a slot built at once. -/
def atOnce (config : Config) : Config :=
  { config with dlMode := .burst }

lemma parts_atOnce (config : Config) (d : Direction) : config.atOnce.parts d = 1 := by
  cases d <;> rfl

lemma Valid.atOnce (h : config.Valid) : config.atOnce.Valid :=
  ⟨h.validate_eq, h.weightless⟩

lemma Feasible.atOnce (h : config.Feasible) : config.atOnce.Feasible where
  patterns_eq := h.patterns_eq
  role_eq := h.role_eq
  parts_le := by
    rw [parts_atOnce]
    decide
  elements_le := h.elements_le
  builds := h.builds

end Config

namespace Crew.SpreadDownlink

/-- The text of the configuration. -/
def text : String :=
  "num_eaxc = 1
dl_cp_mode = \"spread\"

[[prb_map.dl]]
rb_start = 0
rb_size = 100

[[prb_map.dl]]
rb_start = 100
rb_size = 100
"

end Crew.SpreadDownlink

/-! ## Runs with other totals -/

namespace Crew.WrappedLeads

/-- The delays ask for three parts of the downlink, but both leads have more than thirty-two bits. -/
def config : Config where
  antennas := 1
  dlMode := .spread
  budget := { t1aMaxControlDl := 4294967295, t1aMinControlDl := 4294967171, advanceDl := 225 }
  runSlots := 1

/-- The text of the configuration. -/
def text : String :=
  "num_eaxc = 1
dl_cp_mode = \"spread\"
run_slots = 1

[delay_budget]
t1a_max_cp_dl = 4294967295
t1a_min_cp_dl = 4294967171
t_adv_cp_dl = 225
"

/-- The outcome has the jobs of four parts. -/
def summary : RunSummary where
  slots := 1
  producer := { packets := 2, sections := 2 }
  scheduler := { ticks := 14, dispatched := 7 }
  radio := { packets := 2, sections := 2 }
  ulDeadlines := 2

lemma feasible : config.Feasible where
  patterns_eq := rfl
  role_eq := rfl
  parts_le := by decide +kernel
  elements_le := fun d => by cases d <;> decide
  builds := Config.builds_of_freshProducer fun d => by cases d <;> decide +kernel

end Crew.WrappedLeads

namespace Crew.UnknownWeights

/-- A vector of weights goes with the one downlink element. -/
def config : Config where
  antennas := 1
  category := .b
  dlElements := [{ numPrb := 100, weightUpdate := true,
                   weights := { count := 1, width := 8, weights := [⟨1, 2⟩] } }]
  ulElements := []
  runSlots := 1

/-- The outcome has no section at the radio unit. -/
def summary : RunSummary where
  slots := 1
  producer := { packets := 1, sections := 1 }
  scheduler := { ticks := 14, dispatched := 4 }
  radio := { packets := 1, failures := 1 }
  ulDeadlines := 2

lemma feasible : config.Feasible where
  patterns_eq := rfl
  role_eq := rfl
  parts_le := by decide +kernel
  elements_le := fun d => by cases d <;> decide
  builds := Config.builds_of_freshProducer fun d => by cases d <;> decide +kernel

end Crew.UnknownWeights

end OpenFronthaul
