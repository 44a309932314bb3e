import OpenFronthaul.Proofs.Emulation.Feasible
import OpenFronthaul.Proofs.Emulation.Filling
import OpenFronthaul.Proofs.Emulation.Interleaving

/-!
# What the buckets of a distributed unit hold

When every element can be built and a bucket has room for the elements of a direction, no job ever
fails for want of room, and every bucket of the distributed unit holds what the performed jobs of its
rotation context leave there (`Crew.Stocked`), in whatever way the jobs interleave.  From the last
part of a slot on until the first part of the next slot of the same rotation context these are the
sections of all elements, in order (`Crew.bucket_complete`).
-/

namespace OpenFronthaul

/-! ## Performing a job -/

namespace Crew

variable {config : Config} {start : Run} {crew : Crew} {n : ℕ}

/-- What the workers of a kind can do on the side of a distributed unit. -/
inductive Works (crew : Crew) : JobKind → Crew → Prop
  /-- Nothing waits. -/
  | rests (kind : JobKind) : Works crew kind crew
  /-- A part of a direction is built. -/
  | builds {d : Direction} {job : Job} {rest : List Job}
      (hwaiting : crew.waiting d.work = job :: rest) :
      Works crew d.work
        { crew.perform d.work job rest with run := crew.run.build d job.event }
  /-- A reception deadline passes. -/
  | passes {job : Job} {rest : List Job} (hwaiting : crew.waiting .deadline = job :: rest) :
      Works crew .deadline
        { crew.perform .deadline job rest with
          run := { crew.run with ulDeadlines := crew.run.ulDeadlines + 1 } }

/-- Jobs that were handed out do what their kind says. -/
theorem works_work (hrole : config.role = .distributedUnit) (h : Run.create config = .ok start)
    (htime : OnTime start n crew) (kind : JobKind) : Works crew kind (crew.work kind) := by
  unfold Crew.work
  cases hwaiting : crew.waiting kind with
  | nil => exact .rests kind
  | cons job rest =>
    have hhanded : job ∈ handed start n kind := by
      rw [← htime.handed_eq, hwaiting]
      exact List.mem_append_right _ List.mem_cons_self
    obtain ⟨symbols, -, hdue⟩ := List.mem_flatMap.mp hhanded
    rw [ofKind_due h] at hdue
    obtain ⟨x, hx, rfl⟩ := List.mem_map.mp hdue
    obtain ⟨hmem, hkind⟩ := List.mem_filter.mp (List.mem_of_mem_filter hx)
    obtain rfl : x.job = kind := of_decide_eq_true hkind
    have hjob := routed_handed h n _ _ hhanded
    rcases Config.mem_deadlines hrole hmem with ⟨d, hd⟩ | ⟨hdeadline, harrived⟩
    · rw [hd] at hwaiting hjob ⊢
      have hrun := Run.perform_eq_build hjob crew.run
      dsimp only
      rw [perform, hrun]
      exact .builds hwaiting
    · rw [hdeadline] at hwaiting ⊢
      have hrun : crew.run.perform (config.jobOf symbols x).event =
          { crew.run with ulDeadlines := crew.run.ulDeadlines + 1 } := by
        have hevent : (config.jobOf symbols x).event.kind = x.kind := rfl
        rw [Run.perform, hevent]
        rcases harrived with harrived | harrived <;> rw [harrived]
      dsimp only
      rw [perform, hrun]
      exact .passes hwaiting

/-! ## What the performed jobs leave -/

/-- Every bucket of the distributed unit holds what the performed jobs leave there. -/
structure Stocked (start : Run) (crew : Crew) : Prop where
  follows : start.plan.Follows crew.run.producer
  capacity_eq : crew.run.producer.store.capacity = defaultBucketCapacity
  entries_eq : ∀ key : SectionKey, key.flow ∈ start.plan.flows key.direction →
    key.context.toNat < rotationContexts → crew.run.producer.store.entries key =
      start.plan.content key.direction key.context (crew.done key.direction.work)

lemma context_lt_of_mem_handed {d : Direction} {job : Job} (h : Run.create config = .ok start)
    (hrole : config.role = .distributedUnit) (hjob : job ∈ handed start n d.work) :
    job.event.context.toNat < rotationContexts := by
  obtain ⟨symbols, -, part, -, -, rfl⟩ := exists_of_mem_handed h hrole hjob
  exact rotationContext_lt (config.partJob d symbols part).event.target

namespace Stocked

lemma ofRun (h : Ready config start) : Stocked start (ofRun start) :=
  ⟨h.follows, h.capacity_eq, fun key _ _ => h.entries_eq key⟩

/-- A job that is next finds room for its part in the buckets of all flows. -/
lemma serves (hstocked : Stocked start crew) (hfeasible : config.Feasible)
    (h : Run.create config = .ok start) (htime : OnTime start n crew) {d : Direction} {job : Job}
    {rest : List Job} (hwaiting : crew.waiting d.work = job :: rest) :
    start.plan.ServesAll d job.event (start.plan.flows d) crew.run.producer
      (start.plan.build d job.event crew.run.producer).2
      (start.plan.build d job.event crew.run.producer).1 := by
  have hready := ready_of_create hfeasible h
  have hupTo : crew.done d.work ++ [job] <+: handed start n d.work := by
    rw [← htime.handed_eq, hwaiting, List.prefix_append_right_inj]
    exact List.prefix_append [job] rest
  have hcontext := context_lt_of_mem_handed h hfeasible.role_eq
    (hupTo.subset (List.mem_append_right _ (List.mem_singleton_self job)))
  refine Plan.build_serves hready.buildable hstocked.follows hcontext fun key hflow hkey => ?_
  obtain rfl : key.direction = d := Plan.direction_of_mem_flows hflow
  have hrefill : start.plan.refill key.direction (crew.run.producer.store.entries key) job.event =
      start.plan.content key.direction key.context (crew.done key.direction.work ++ [job]) := by
    rw [Plan.content_concat, if_pos hkey.symm, hstocked.entries_eq key hflow (hkey ▸ hcontext)]
  have hsize : (start.plan.map key.direction).size ≤ defaultBucketCapacity := by
    rw [hready.pairs.map_eq]
    exact hfeasible.elements_le key.direction
  rw [hrefill, hstocked.capacity_eq]
  exact (length_content_le h hfeasible.role_eq (hfeasible.parts_le' key.direction) (hkey ▸ hcontext)
    hupTo).trans hsize

lemma tick (hstocked : Stocked start crew) : Stocked start crew.tick := by
  rw [tick_eq]
  exact ⟨hstocked.follows, hstocked.capacity_eq, hstocked.entries_eq⟩

lemma receive (hstocked : Stocked start crew) : Stocked start crew.receive := by
  unfold Crew.receive Run.receiveNext
  cases crew.run.queue with
  | nil => exact hstocked
  | cons packet queue => exact ⟨hstocked.follows, hstocked.capacity_eq, hstocked.entries_eq⟩

lemma work (hstocked : Stocked start crew) (hfeasible : config.Feasible)
    (h : Run.create config = .ok start) (htime : OnTime start n crew) (kind : JobKind) :
    Stocked start (crew.work kind) := by
  have hworks := works_work hfeasible.role_eq h htime kind
  generalize crew.work kind = after at hworks
  cases hworks with
  | rests => exact hstocked
  | @builds d job rest hwaiting =>
    have hserves := hstocked.serves hfeasible h htime hwaiting
    rw [← htime.plan_eq] at hserves
    refine ⟨?_, hserves.capacity_eq.trans hstocked.capacity_eq, fun key hflow hcontext => ?_⟩
    · rw [← htime.plan_eq]
      exact hserves.follows
    · refine (hserves.entries_eq key).trans ?_
      rw [hstocked.entries_eq key hflow hcontext, htime.plan_eq]
      by_cases hd : key.direction = d
      · subst hd
        dsimp only
        rw [done_perform_self, Plan.content_concat]
        refine if_congr ?_ rfl rfl
        rw [and_iff_right hflow, eq_comm]
      · dsimp only
        rw [done_perform_of_ne crew d.work job rest fun hwork => hd (Direction.work_injective hwork),
          if_neg fun hserved => hd (Plan.direction_of_mem_flows hserved.1)]
  | @passes job rest hwaiting =>
    refine ⟨hstocked.follows, hstocked.capacity_eq, fun key hflow hcontext => ?_⟩
    have hother : key.direction.work ≠ .deadline := by cases key.direction <;> decide
    dsimp only
    rw [done_perform_of_ne crew .deadline job rest hother]
    exact hstocked.entries_eq key hflow hcontext

/-- However jobs and packets interleave, the buckets hold what the performed jobs leave there. -/
theorem play (hstocked : Stocked start crew) (hfeasible : config.Feasible)
    (h : Run.create config = .ok start) (htime : OnTime start n crew) (actions : List Action) :
    Stocked start (crew.play actions) := by
  induction actions generalizing n crew with
  | nil => exact hstocked
  | cons action actions ih =>
    cases action with
    | tick => exact ih hstocked.tick htime.tick
    | work kind => exact ih (hstocked.work hfeasible h htime kind) (htime.work kind)
    | receive => exact ih hstocked.receive htime.receive

end Stocked

/-! ## Complete buckets -/

variable {d : Direction} {slot part : ℕ}

/-- A part of a slot was built. -/
def Built (config : Config) (d : Direction) (slot part : ℕ) (crew : Crew) : Prop :=
  ∃ job ∈ crew.done d.work, job.IsPart config d slot part

/-- All parts of a slot were handed out. -/
def Dispatched (config : Config) (d : Direction) (slot : ℕ) (crew : Crew) : Prop :=
  ∀ part < config.parts d, ∃ job ∈ crew.done d.work ++ crew.waiting d.work,
    job.IsPart config d slot part

instance (config : Config) (d : Direction) (slot part : ℕ) :
    DecidablePred (Built config d slot part) :=
  fun crew => inferInstanceAs (Decidable (∃ job ∈ crew.done d.work, job.IsPart config d slot part))

instance (config : Config) (d : Direction) (slot : ℕ) : DecidablePred (Dispatched config d slot) :=
  fun crew => inferInstanceAs (Decidable (∀ part < config.parts d,
    ∃ job ∈ crew.done d.work ++ crew.waiting d.work, job.IsPart config d slot part))

lemma nodup_ids (category : Category) {elements : List PrbElement}
    (h : elements.length ≤ defaultBucketCapacity) :
    ((elements.zipIdx.map (Producer.elementRecord category)).map Section.id).Nodup := by
  have hids : (elements.zipIdx.map (Producer.elementRecord category)).map Section.id =
      (List.range elements.length).map UInt16.ofNat := by
    rw [List.range_eq_range', ← List.zipIdx_map_snd, List.map_map, List.map_map]
    rfl
  rw [hids]
  refine List.nodup_range.map_on fun i hi j hj hij => ?_
  have hi := List.mem_range.mp hi
  have hj := List.mem_range.mp hj
  have hcapacity : defaultBucketCapacity = 66 := rfl
  rwa [← UInt16.toNat_inj, UInt16.toNat_ofNat', UInt16.toNat_ofNat', Nat.mod_eq_of_lt (by omega),
    Nat.mod_eq_of_lt (by omega)] at hij

lemma context_of_isPart (h : Run.create config = .ok start) (hrole : config.role = .distributedUnit)
    {job : Job} (hjob : job ∈ handed start n d.work) (hpart : job.IsPart config d slot part) :
    job.event.context = rotationContext slot := by
  have htarget := (target_of_isPart h hrole hjob hpart).1
  obtain ⟨symbols, -, k, -, -, rfl⟩ := exists_of_mem_handed h hrole hjob
  show rotationContext (config.partJob d symbols k).event.target = _
  rw [htarget, rotationContext_wrapSlot, rotationContext]
  congr 1

lemma partJob_mem_handed (h : Run.create config = .ok start) (hrole : config.role = .distributedUnit)
    {symbols : ℕ} (hsymbols : symbols < n) (hpart : part < config.parts d)
    (hdue : config.IsDue d symbols part) : config.partJob d symbols part ∈ handed start n d.work := by
  refine List.mem_flatMap.mpr ⟨symbols, List.mem_range.mpr hsymbols, ?_⟩
  rw [ofKind_due_work h hrole]
  exact List.mem_map_of_mem
    (List.mem_filter.mpr ⟨List.mem_range.mpr hpart, decide_eq_true hdue⟩)

/-- The buckets of a rotation context are as after the ticks up to some time, whatever was performed
for other contexts. -/
lemma exists_reached (hfeasible : config.Feasible) (h : Run.create config = .ok start)
    (htime : OnTime start n crew) (d : Direction) (slot : ℕ) :
    ∃ m, start.plan.content d (rotationContext slot) (crew.done d.work) =
        start.plan.content d (rotationContext slot) (handed start m d.work) ∧
      ∀ job : Job, job.event.context = rotationContext slot →
        (job ∈ crew.done d.work ↔ job ∈ handed start m d.work) := by
  have hupTo : crew.done d.work <+: handed start n d.work :=
    htime.handed_eq d.work ▸ List.prefix_append _ _
  obtain ⟨m, -, hfilter, hcontent⟩ := exists_content_eq h hfeasible.role_eq
    (hfeasible.parts_le' d) (Nat.mod_lt slot (by decide)) hupTo
  refine ⟨m, hcontent, fun job hjob => ?_⟩
  have hiff : job ∈ (crew.done d.work).filter (·.event.context = UInt8.ofNat (slot % 4)) ↔
      job ∈ (handed start m d.work).filter (·.event.context = UInt8.ofNat (slot % 4)) := by
    rw [hfilter]
  have hsame : decide (job.event.context = UInt8.ofNat (slot % 4)) = true := decide_eq_true hjob
  rwa [List.mem_filter, List.mem_filter, and_iff_left hsame, and_iff_left hsame] at hiff

/-- From the last part of a slot on until the first part of the next slot of its context all sections
are there. -/
lemma content_handed_complete (hfeasible : config.Feasible) (h : Run.create config = .ok start)
    {begin m : ℕ} (hbegin : (begin : ℤ) = 14 * slot + config.opening d)
    (hend : begin + config.parts d ≤ m) (hcycle : m ≤ begin + 56) :
    start.plan.content d (rotationContext slot) (handed start m d.work) = start.plan.sections d := by
  have hpos := config.parts_pos d
  have hcontext : slot % 4 < 4 := Nat.mod_lt _ (by decide)
  obtain ⟨first, -, hstretch, hzero⟩ :=
    content_handed h hfeasible.role_eq (hfeasible.parts_le' d) hcontext m
  have hsince : config.cycle d (slot % 4) m = m - begin := by
    unfold Config.cycle Config.phase
    split_ifs <;> omega
  obtain rfl := hzero (by omega)
  have hreached : reached config start.plan d (slot % 4) m = (start.plan.map d).size := by
    rw [reached, hsince, Nat.min_eq_right (by omega), Nat.mul_div_cancel _ hpos]
  rw [hreached, ← start.plan.length_sections d, List.take_length, List.drop_zero] at hstretch
  exact hstretch

lemma content_complete (hfeasible : config.Feasible) (h : Run.create config = .ok start)
    (htime : OnTime start n crew) (hall : Dispatched config d slot crew)
    (hlast : Built config d slot (config.parts d - 1) crew)
    (hnext : ¬Built config d (slot + 4) 0 crew) :
    start.plan.content d (rotationContext slot) (crew.done d.work) = start.plan.sections d := by
  have hrole := hfeasible.role_eq
  have hpos := config.parts_pos d
  obtain ⟨m, hcontent, hperformed⟩ := exists_reached hfeasible h htime d slot
  rw [hcontent]
  obtain ⟨job, hjob, hpart⟩ := hall 0 hpos
  rw [htime.handed_eq] at hjob
  obtain ⟨-, hfirst⟩ := (isPart_iff h hrole hjob).mp hpart
  obtain ⟨begin, hbegin⟩ : ∃ begin : ℕ, (begin : ℤ) = 14 * slot + config.opening d :=
    ⟨job.symbols, by omega⟩
  refine content_handed_complete hfeasible h hbegin ?_ ?_
  · -- the tick of the last part has passed
    obtain ⟨last, hlast, hpart⟩ := hlast
    have hhanded : last ∈ handed start n d.work := by
      rw [← htime.handed_eq]
      exact List.mem_append_left _ hlast
    have hmem := (hperformed last (context_of_isPart h hrole hhanded hpart)).mp hlast
    obtain ⟨-, hend⟩ := (isPart_iff h hrole hmem).mp hpart
    obtain ⟨symbols, hsymbols, k, -, -, rfl⟩ := exists_of_mem_handed h hrole hmem
    have hend : (symbols : ℤ) = 14 * slot + config.opening d + (config.parts d - 1 : ℕ) := hend
    omega
  · -- the tick of the next first part has not
    by_contra hlate
    have hdue : config.IsDue d (begin + 56) 0 := by
      show ((config.opening d + (0 : ℕ)) % 14).toNat = (begin + 56) % 14
      omega
    have hmem := partJob_mem_handed h hrole (Nat.lt_of_not_le hlate) hpos hdue
    have hpart : (config.partJob d (begin + 56) 0).IsPart config d (slot + 4) 0 := by
      refine (isPart_iff h hrole hmem).mpr ⟨rfl, ?_⟩
      show ((begin + 56 : ℕ) : ℤ) = _
      push_cast
      omega
    refine hnext ⟨_, (hperformed _ ?_).mpr hmem, hpart⟩
    rw [context_of_isPart h hrole hmem hpart, rotationContext, rotationContext, rotationContexts,
      Nat.add_mod_right]

/-- However the jobs of a run interleave: when all parts of a slot were handed out, from the moment
its last part is built until the first part of the next slot of the same rotation context is, the
buckets of the slot hold the sections of all elements in order, under ids of their own. -/
theorem bucket_complete (hfeasible : config.Feasible) (h : Run.create config = .ok start)
    (actions : List Action) (hall : Dispatched config d slot ((ofRun start).play actions))
    (hlast : Built config d slot (config.parts d - 1) ((ofRun start).play actions))
    (hnext : ¬Built config d (slot + 4) 0 ((ofRun start).play actions))
    {carrier antenna : UInt8} (hcarrier : carrier < config.carriers)
    (hantenna : antenna < config.antennas) :
    ((ofRun start).play actions).run.producer.store.entries
          ⟨d, carrier, antenna, rotationContext slot⟩ =
        (config.elements d).zipIdx.map (Producer.elementRecord config.category) ∧
      ((((ofRun start).play actions).run.producer.store.entries
          ⟨d, carrier, antenna, rotationContext slot⟩).map Section.id).Nodup := by
  have hready := ready_of_create hfeasible h
  have htime := (OnTime.ofRun start).play actions
  have hstocked := (Stocked.ofRun hready).play hfeasible h (.ofRun start) actions
  have hentries := hstocked.entries_eq ⟨d, carrier, antenna, rotationContext slot⟩ ?_ ?_
  · rw [hentries, content_complete hfeasible h htime hall hlast hnext, Plan.sections,
      hready.pairs.map_eq, hready.pairs.config_eq]
    exact ⟨rfl, nodup_ids config.category (hfeasible.elements_le d)⟩
  · refine Plan.mem_flows_iff.mpr ⟨rfl, ?_⟩
    rw [hready.pairs.config_eq]
    exact ⟨UInt8.lt_iff_toNat_lt.mp hcarrier, UInt8.lt_iff_toNat_lt.mp hantenna⟩
  · exact rotationContext_lt slot

end Crew

namespace Crew.SpreadDownlink

/-- One flow for each direction; two downlink elements in five parts. -/
def config : Config where
  antennas := 1
  dlMode := .spread
  dlElements := [{ numPrb := 100 }, { startPrb := 100, numPrb := 100 }]

/-- The five parts of slot one are built on two of the symbols on which they are handed out, and one
after them. -/
def actions : List Action :=
  [.tick, .tick, .tick, .tick, .work .dlControl, .work .dlControl, .tick, .tick, .tick,
    .work .dlControl, .receive, .work .dlControl, .tick, .work .dlControl]

lemma feasible : config.Feasible where
  patterns_eq := rfl
  role_eq := rfl
  parts_le := by decide +kernel
  elements_le := fun d => by cases d <;> decide
  builds := Config.builds_of_freshProducer fun d => by cases d <;> decide +kernel

theorem bucket_complete_spreadDownlink : ∃ start, Run.create config = .ok start ∧
    ((ofRun start).play actions).run.producer.store.entries ⟨.dl, 0, 0, 1⟩ =
      config.dlElements.zipIdx.map (Producer.elementRecord .a) := by
  have hend : ((Run.create config).toOption.map fun start =>
      let crew := (ofRun start).play actions
      decide (Dispatched config .dl 1 crew ∧ Built config .dl 1 (config.parts .dl - 1) crew ∧
        ¬Built config .dl 5 0 crew)) = some true := by
    decide +kernel
  rcases hcreate : Run.create config with e | start
  · rw [hcreate] at hend
    cases hend
  · rw [hcreate] at hend
    obtain ⟨hall, hlast, hnext⟩ := of_decide_eq_true (Option.some.inj hend)
    exact ⟨start, rfl, (bucket_complete feasible hcreate actions hall hlast hnext (by decide)
      (by decide)).1⟩

end Crew.SpreadDownlink

end OpenFronthaul
