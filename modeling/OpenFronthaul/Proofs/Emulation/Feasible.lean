import OpenFronthaul.Proofs.Emulation.Parts
import OpenFronthaul.Proofs.Emulation.Schedule

/-!
# Configurations that can do their work

A distributed unit can do its work on paired spectrum when the parts of a slot are done before the
next slot of the same rotation context begins, a bucket has room for the elements of a direction, and
every element can be built (`Config.Feasible`).  Its plan is then one that can be followed from the
start on (`Crew.ready_of_create`).
-/

namespace OpenFronthaul

namespace Config

/-- What the producer of a carrier on paired spectrum goes by. -/
def pairedSettings (config : Config) : ProducerSettings where
  mu := config.mu
  tagging := config.tagging
  framer := ⟨config.layout, 0, 0⟩
  frame := .fdd config.mu
  mtu := config.mtu

/-- A distributed unit on paired spectrum that can do its work: the parts of a slot are done before
the next slot of the same rotation context begins, a bucket has room for the elements of a direction,
and every element can be built. -/
structure Feasible (config : Config) : Prop where
  patterns_eq : config.patterns = none
  role_eq : config.role = .distributedUnit
  parts_le : config.parts .dl ≤ 56
  elements_le : ∀ d, (config.elements d).length ≤ defaultBucketCapacity
  builds : ∀ d, ∀ x ∈ (config.elements d).zipIdx,
    Producer.Builds config.pairedSettings d config.category x

lemma Feasible.parts_le' {config : Config} (h : config.Feasible) (d : Direction) :
    config.parts d ≤ 56 := by
  cases d with
  | dl => exact h.parts_le
  | ul =>
    show 1 ≤ 56
    decide

/-- A producer that has recorded nothing for the first flow yet. -/
def freshProducer (config : Config) : Producer where
  settings := config.pairedSettings
  store := ⟨1, 1, 66, Vector.replicate _ (.blank 66)⟩

/-- Elements that can be built for the first slot can be built. -/
lemma builds_of_freshProducer {config : Config}
    (h : ∀ d, ∀ x ∈ (config.elements d).zipIdx,
      ((Producer.buildElement ⟨⟨d, 0, 0⟩, 0, config.category, 0⟩ x.2 x.1).run
        config.freshProducer).1.isOk = true)
    (d : Direction) : ∀ x ∈ (config.elements d).zipIdx,
      Producer.Builds config.pairedSettings d config.category x :=
  fun x hx => ⟨_, _, rfl, rfl, rfl, h d x hx⟩

end Config

/-- What a plan for paired spectrum has of its configuration. -/
structure Plan.Pairs (plan : Plan) (config : Config) : Prop where
  config_eq : plan.config = config
  settings_eq : plan.settings = config.pairedSettings
  map_eq : ∀ d, plan.map d = ⟨d, config.elements d⟩

lemma Config.map_eq {config : Config} {d : Direction} {map : PrbMap} (h : config.map d = .ok map) :
    map = ⟨d, config.elements d⟩ := by
  simp only [Config.map, PrbMap.create, check_eq_ok, bind_eq_ok, pure_eq_ok] at h
  obtain ⟨-, _, -, rfl⟩ := h
  rfl

lemma Plan.pairs_of_create {config : Config} {plan : Plan} (h : Plan.create config = .ok plan)
    (hpatterns : config.patterns = none) : plan.Pairs config := by
  simp only [create, Config.frame, hpatterns, bind_eq_ok, pure_eq_ok, liftLink_eq_ok] at h
  obtain ⟨frame, rfl, framer, hframer, dlMap, hdl, ulMap, hul, rfl⟩ := h
  obtain rfl : framer = ⟨config.layout, 0, 0⟩ := by
    simp only [Ecpri.Framer.create, bind_eq_ok, pure_eq_ok] at hframer
    obtain ⟨_, -, rfl⟩ := hframer
    rfl
  refine ⟨rfl, rfl, fun d => ?_⟩
  cases d with
  | dl => exact Config.map_eq hdl
  | ul => exact Config.map_eq hul

lemma Plan.shape_emptyStore {plan : Plan} {store : SectionStore} (h : plan.emptyStore = .ok store) :
    store.carriers = plan.config.carriers.toNat ∧ store.antennas = plan.config.antennas.toNat ∧
      store.capacity = defaultBucketCapacity := by
  rw [emptyStore, SectionStore.create, guard_eq_ok] at h
  obtain rfl := Except.ok.inj h.2
  exact ⟨rfl, rfl, rfl⟩

namespace Crew

variable {config : Config} {start : Run}

/-- The plan of a feasible configuration can be followed from the start on. -/
structure Ready (config : Config) (start : Run) : Prop where
  pairs : start.plan.Pairs config
  buildable : start.plan.Buildable
  follows : start.plan.Follows start.producer
  capacity_eq : start.producer.store.capacity = defaultBucketCapacity
  entries_eq : ∀ key, start.producer.store.entries key = []

lemma ready_of_create (hfeasible : config.Feasible) (h : Run.create config = .ok start) :
    Ready config start := by
  obtain ⟨plan, store, hplan, hstore, -, rfl⟩ := Run.create_eq_ok.mp h
  have hpairs := Plan.pairs_of_create hplan hfeasible.patterns_eq
  have hempty := SectionStore.entries_create hstore
  obtain ⟨hcarriers, hantennas, hcapacity⟩ := Plan.shape_emptyStore hstore
  have hsettings : (Run.fresh config plan store).producer.settings = plan.settings := by
    rw [Plan.settings, hpairs.config_eq]
    rfl
  have hbuildable : plan.Buildable := by
    constructor
    · rw [hpairs.config_eq]
      exact congrArg ProducerSettings.frame hpairs.settings_eq
    · intro d
      rw [hpairs.map_eq, hpairs.settings_eq, hpairs.config_eq]
      exact hfeasible.builds d
  refine ⟨hpairs, hbuildable, ⟨hsettings, rfl, fun d flow hflow context hcontext => ?_⟩, hcapacity,
    hempty⟩
  obtain ⟨-, hcarrier, hantenna⟩ := Plan.mem_flows_iff.mp hflow
  refine SectionStore.hasKey_iff.mpr ⟨hcontext, ?_, ?_⟩
  · exact hcarrier.trans_eq hcarriers.symm
  · exact hantenna.trans_eq hantennas.symm

end Crew

end OpenFronthaul
