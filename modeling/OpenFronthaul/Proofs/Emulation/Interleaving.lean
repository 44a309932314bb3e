import OpenFronthaul.Proofs.Emulation.Crew
import OpenFronthaul.Proofs.Emulation.Start
import OpenFronthaul.Proofs.Producer.Locality
import OpenFronthaul.Proofs.Receiver.Elements
import OpenFronthaul.Proofs.Receiver.Locality

/-!
# Interleavings

The workers of the two directions share the producer, the queue and the radio unit.  A job of one
direction nevertheless goes as if the other direction had nothing to do: at any time, what a crew has
of a direction is what a run would have that performed the jobs of this direction alone (`Apart`).
So all that can be said about a crew that has nothing left to do depends on the number of ticks, and
is what a run comes to that performs every job at once (`Crew.alike_ticks`).
-/

namespace OpenFronthaul

open Scheduler (workFor)

/-! ## What is sent for a direction -/

lemma forall_mem_mapM {σ α β : Type} {f : α → StateM σ (List β)} {P : β → Prop} {as : List α}
    (h : ∀ a ∈ as, ∀ s, ∀ b ∈ (f a s).1, P b) (s : σ) : ∀ bs ∈ (as.mapM f s).1, ∀ b ∈ bs, P b := by
  induction as generalizing s with
  | nil => exact nofun
  | cons a as ih =>
    obtain ⟨ha, has⟩ := List.forall_mem_cons.mp h
    rw [mapM_cons_apply]
    exact List.forall_mem_cons.mpr ⟨ha s, ih has (f a s).2⟩

namespace Plan

variable {plan : Plan} {event : SymbolEvent} {range : ℕ × ℕ} {flow : Flow} {p after : Producer}

/-- What a flow sends are packets of its elements. -/
lemma direction_of_sendRange {sent : List Bytes}
    (h : (plan.sendRange event range flow).run p = (.ok sent, after)) :
    ∀ wire ∈ sent, packetDirection wire = flow.direction := by
  unfold sendRange at h
  by_cases hrange : range.1 < range.2
  · rw [if_pos hrange] at h
    obtain ⟨packets, built, hpackets, hrest⟩ := run_bind_eq_ok.mp h
    cases hrest
    obtain ⟨-, hframed⟩ := Producer.run_buildElements_eq_ok (UInt8.add_zero _).symm hpackets
    intro wire hwire
    obtain ⟨packet, hpacket, rfl⟩ := List.mem_map.mp hwire
    obtain ⟨x, -, hx⟩ := exists_of_mem_right hframed hpacket
    exact packetDirection_of_isElementPacket hx.isElementPacket
  · rw [if_neg hrange] at h
    cases h
    exact nofun

lemma direction_of_flowStep {sent : List Bytes}
    (h : (plan.flowStep event range flow).run p = (.ok sent, after)) :
    ∀ wire ∈ sent, packetDirection wire = flow.direction := by
  unfold flowStep at h
  by_cases hpart : event.part = 0
  · simp only [if_pos hpart] at h
    obtain ⟨-, emptied, -, hrest⟩ := run_bind_eq_ok.mp h
    exact direction_of_sendRange hrest
  · simp only [if_neg hpart] at h
    exact direction_of_sendRange h

lemma direction_of_mem_build {d : Direction} {wire : Bytes}
    (h : wire ∈ (plan.build d event p).1) : packetDirection wire = d := by
  have hflow : ∀ range, ∀ flow ∈ plan.flows d, ∀ p, ∀ wire ∈ (plan.buildFlow event range flow p).1,
      packetDirection wire = d := by
    intro range flow hflow p wire hwire
    rw [← direction_of_mem_flows hflow]
    rw [buildFlow_eq] at hwire
    rcases hstep : (plan.flowStep event range flow).run p with ⟨e | sent, after⟩
    · rw [hstep] at hwire
      cases hwire
    · rw [hstep] at hwire
      exact direction_of_flowStep hstep wire hwire
  simp only [build] at h
  split_ifs at h
  · obtain ⟨sent, hsent, hwire⟩ := List.mem_flatten.mp h
    exact forall_mem_mapM (hflow _) p sent hsent wire hwire
  · cases h

end Plan

/-! ## Jobs of one kind alone -/

namespace Run

/-- A run after it performed some jobs, whatever becomes of what they send. -/
def performAll (run : Run) (jobs : List Job) : Run :=
  jobs.foldl (fun run job => run.perform job.event) run

/-- A radio unit at the end of some packets. -/
def heard (run : Run) (packets : List Bytes) : RadioUnit :=
  packets.foldl (RadioUnit.receive run.plan) run.radio

variable {start : Run} {d : Direction} {event : SymbolEvent}

lemma performAll_concat (jobs : List Job) (job : Job) :
    start.performAll (jobs ++ [job]) = (start.performAll jobs).perform job.event :=
  List.foldl_concat _ _ _ _

lemma heard_concat (packets : List Bytes) (packet : Bytes) :
    start.heard (packets ++ [packet]) = (start.heard packets).receive start.plan packet :=
  List.foldl_concat _ _ _ _

lemma plan_performAll (start : Run) (jobs : List Job) :
    (start.performAll jobs).plan = start.plan := by
  induction jobs using List.reverseRecOn with
  | nil => rfl
  | append_singleton jobs job ih =>
    rw [performAll_concat]
    exact (Crew.perform_frame _ _).1.trans ih

lemma perform_eq_build (h : workFor event.kind = d.work) (run : Run) :
    run.perform event = run.build d event := by
  unfold perform
  cases hkind : event.kind <;> cases d <;> rw [hkind] at h <;> first | rfl | cases h

/-- A job that builds for no direction is counted if it is a reception deadline. -/
lemma exists_perform_eq (h : ∀ d : Direction, workFor event.kind ≠ d.work) :
    ∃ passed, (workFor event.kind = .deadline ∨ passed = 0) ∧
      ∀ run : Run, run.perform event = { run with ulDeadlines := run.ulDeadlines + passed } := by
  unfold perform
  cases hkind : event.kind with
  | dlControl => exact absurd (by rw [hkind]; rfl) (h .dl)
  | ulControl => exact absurd (by rw [hkind]; rfl) (h .ul)
  | ulHalfArrived => exact ⟨1, .inl rfl, fun run => rfl⟩
  | ulArrived => exact ⟨1, .inl rfl, fun run => rfl⟩
  | radioUlSend => exact ⟨0, .inr rfl, fun run => rfl⟩
  | radioDlArrived => exact ⟨0, .inr rfl, fun run => rfl⟩
  | user moment => exact ⟨0, .inr rfl, fun run => rfl⟩

/-- Two runs that agree on a direction send the same for it. -/
lemma build_alike {left right : Run} (hplan : left.plan = right.plan)
    (hown : Producer.AgreesOn (· = d) left.producer right.producer)
    (hleft : left.producer.memory.pool = none) (hright : right.producer.memory.pool = none)
    (event : SymbolEvent) :
    Producer.Twins d left.producer right.producer (left.build d event).producer
        (right.build d event).producer ∧
      ∃ sent, (∀ wire ∈ sent, packetDirection wire = d) ∧
        (left.build d event).queue = left.queue ++ sent ∧
        (right.build d event).queue = right.queue ++ sent := by
  obtain ⟨hsent, htwins⟩ :=
    left.plan.lockstep_build d event (Producer.Twins.begin hown hleft hright)
  refine ⟨?_, (left.plan.build d event left.producer).1, fun wire hwire =>
    Plan.direction_of_mem_build hwire, rfl, ?_⟩
  · have hbuilt : (right.build d event).producer = (left.plan.build d event right.producer).2 := by
      rw [hplan]
      rfl
    rw [hbuilt]
    exact htwins
  · rw [hsent, hplan]
    rfl

lemma pool_performAll (h : start.producer.memory.pool = none) {jobs : List Job}
    (hjobs : ∀ job ∈ jobs, workFor job.event.kind = d.work) :
    (start.performAll jobs).producer.memory.pool = none := by
  induction jobs using List.reverseRecOn with
  | nil => exact h
  | append_singleton jobs job ih =>
    obtain ⟨hjobs, hjob⟩ := List.forall_mem_append.mp hjobs
    rw [performAll_concat, perform_eq_build (hjob job (List.mem_singleton_self job))]
    exact (build_alike rfl (.refl _ _) (ih hjobs) (ih hjobs) job.event).1.pool_left

end Run

namespace Crew

variable {start : Run} {received : Direction → List Bytes} {crew : Crew} {n : ℕ}

/-- The run that performed the jobs of one kind that a crew performed, and no others. -/
def alone (crew : Crew) (start : Run) (kind : JobKind) : Run :=
  start.performAll (crew.done kind)

/-- The state of a crew falls apart into what was done for each direction on its own. -/
structure Apart (start : Run) (received : Direction → List Bytes) (crew : Crew) : Prop where
  plan_eq : crew.run.plan = start.plan
  pool : crew.run.producer.memory.pool = none
  routed : ∀ kind, ∀ job ∈ crew.done kind, workFor job.event.kind = kind
  producer : ∀ d : Direction,
    Producer.AgreesOn (· = d) crew.run.producer (crew.alone start d.work).producer
  counts : Producer.GrownAlike (crew.alone start Direction.ul.work).producer.counts
    start.producer.counts crew.run.producer.counts
    (crew.alone start Direction.dl.work).producer.counts
  /-- The packets of a direction that were sent are those that were received and those that are
  under way. -/
  sent : ∀ d : Direction, received d ++ crew.run.queue.filter (packetDirection · = d) =
    (crew.alone start d.work).queue
  radio : ∀ d : Direction, RadioUnit.AgreesOn (· = d) crew.run.radio (start.heard (received d))
  radioCounts : Receiver.GrownAlike (start.heard (received .ul)).counts start.radio.counts
    crew.run.radio.counts (start.heard (received .dl)).counts
  ulDeadlines : crew.run.ulDeadlines = (crew.alone start .deadline).ulDeadlines

namespace Apart

lemma ofRun (hpool : start.producer.memory.pool = none) (hqueue : start.queue = []) :
    Apart start (fun _ => []) (ofRun start) where
  plan_eq := rfl
  pool := hpool
  routed := nofun
  producer := fun _ => .refl _ _
  counts := ⟨rfl, rfl, rfl⟩
  sent := fun d => by
    show List.filter _ start.queue = start.queue
    rw [hqueue]
    rfl
  radio := fun _ => .refl _ _
  radioCounts := ⟨rfl, rfl, rfl, rfl, rfl, rfl⟩
  ulDeadlines := rfl

/-- The clock and what waits do not matter. -/
lemma tick (h : Apart start received crew) : Apart start received crew.tick := by
  rw [tick_eq]
  exact ⟨h.plan_eq, h.pool, h.routed, h.producer, h.counts, h.sent, h.radio, h.radioCounts,
    h.ulDeadlines⟩

lemma pool_alone (h : Apart start received crew) (hpool : start.producer.memory.pool = none)
    (d : Direction) : (crew.alone start d.work).producer.memory.pool = none :=
  Run.pool_performAll hpool (h.routed d.work)

end Apart

section Perform

variable (start : Run) (crew : Crew) (kind : JobKind) (job : Job) (rest : List Job)

lemma done_perform_self : (crew.perform kind job rest).done kind = crew.done kind ++ [job] :=
  Function.update_self _ _ _

lemma done_perform_of_ne {other : JobKind} (h : other ≠ kind) :
    (crew.perform kind job rest).done other = crew.done other :=
  Function.update_of_ne h _ _

lemma alone_perform_self : (crew.perform kind job rest).alone start kind =
    (crew.alone start kind).perform job.event := by
  rw [alone, done_perform_self, Run.performAll_concat]
  rfl

lemma alone_perform_of_ne {other : JobKind} (h : other ≠ kind) :
    (crew.perform kind job rest).alone start other = crew.alone start other := by
  rw [alone, done_perform_of_ne crew kind job rest h]
  rfl

lemma routed_perform (h : ∀ kind, ∀ job ∈ crew.done kind, workFor job.event.kind = kind)
    (hjob : workFor job.event.kind = kind) :
    ∀ other, ∀ x ∈ (crew.perform kind job rest).done other, workFor x.event.kind = other := by
  intro other
  by_cases hother : other = kind
  · subst hother
    rw [done_perform_self]
    exact List.forall_mem_append.mpr ⟨h other, List.forall_mem_singleton.mpr hjob⟩
  · rw [done_perform_of_ne crew kind job rest hother]
    exact h other

end Perform

namespace Apart

/-- A job of a direction goes as it would if nothing was done for the other direction. -/
lemma build (h : Apart start received crew) (hpool : start.producer.memory.pool = none)
    {d : Direction} {job : Job} (hjob : workFor job.event.kind = d.work) (rest : List Job) :
    Apart start received (crew.perform d.work job rest) := by
  have hself := alone_perform_self start crew d.work job rest
  have hother := fun (other : Direction) (hne : other ≠ d) => alone_perform_of_ne start crew d.work
    job rest (fun heq => hne (Direction.work_injective heq))
  have hdeadline : (crew.perform d.work job rest).alone start .deadline =
      crew.alone start .deadline := alone_perform_of_ne start crew d.work job rest
    (by cases d <;> decide)
  have hrun : (crew.perform d.work job rest).run = crew.run.build d job.event :=
    Run.perform_eq_build hjob _
  rw [Run.perform_eq_build hjob] at hself
  have hplan : crew.run.plan = (crew.alone start d.work).plan :=
    h.plan_eq.trans (Run.plan_performAll _ _).symm
  obtain ⟨htwins, sent, hdirection, hqueue, hqueue'⟩ :=
    Run.build_alike hplan (h.producer d) h.pool (h.pool_alone hpool d) job.event
  refine ⟨?_, ?_, routed_perform crew d.work job rest h.routed hjob, fun other => ?_, ?_,
    fun other => ?_, ?_, ?_, ?_⟩
  · rw [hrun]
    exact h.plan_eq
  · rw [hrun]
    exact htwins.pool_left
  · rw [hrun]
    by_cases heq : other = d
    · subst heq
      rw [hself]
      exact htwins.own
    · rw [hother other heq]
      refine (htwins.other_left.symm.mono ?_).trans (h.producer other)
      rintro _ rfl
      exact heq
  · rw [hrun]
    have hcounts := htwins.counts
    cases d with
    | dl =>
      rw [hself, hother .ul (by decide)]
      exact h.counts.trans hcounts
    | ul =>
      rw [hself, hother .dl (by decide)]
      exact (h.counts.swap.trans hcounts).swap
  · rw [hrun, hqueue, List.filter_append, ← List.append_assoc, h.sent]
    by_cases heq : other = d
    · subst heq
      rw [hself, hqueue', List.filter_eq_self.mpr]
      exact fun wire hwire => decide_eq_true (hdirection wire hwire)
    · rw [hother other heq, List.filter_eq_nil_iff.mpr, List.append_nil]
      intro wire hwire hsame
      rw [hdirection wire hwire, decide_eq_true_eq] at hsame
      exact heq hsame.symm
  · rw [hrun]
    exact h.radio
  · rw [hrun]
    exact h.radioCounts
  · rw [hrun, hdeadline]
    exact h.ulDeadlines

/-- A job that builds for no direction leaves both of them alone. -/
lemma pass (h : Apart start received crew) {kind : JobKind} (hkind : ∀ d : Direction, kind ≠ d.work)
    {job : Job} (hjob : workFor job.event.kind = kind) (rest : List Job) :
    Apart start received (crew.perform kind job rest) := by
  obtain ⟨passed, hpassed, hperform⟩ := Run.exists_perform_eq fun d => hjob ▸ hkind d
  have hrun : (crew.perform kind job rest).run =
      { crew.run with ulDeadlines := crew.run.ulDeadlines + passed } := hperform _
  have hother := fun d : Direction =>
    alone_perform_of_ne start crew kind job rest (Ne.symm (hkind d))
  refine ⟨?_, ?_, routed_perform crew kind job rest h.routed hjob, fun d => ?_, ?_, fun d => ?_,
    ?_, ?_, ?_⟩
  · rw [hrun]
    exact h.plan_eq
  · rw [hrun]
    exact h.pool
  · rw [hrun, hother]
    exact h.producer d
  · rw [hrun, hother .ul, hother .dl]
    exact h.counts
  · rw [hrun, hother]
    exact h.sent d
  · rw [hrun]
    exact h.radio
  · rw [hrun]
    exact h.radioCounts
  · rw [hrun]
    show crew.run.ulDeadlines + passed = _
    rw [h.ulDeadlines]
    by_cases hdeadline : kind = .deadline
    · subst hdeadline
      rw [alone_perform_self, hperform]
    · rw [alone_perform_of_ne start crew kind job rest (Ne.symm hdeadline)]
      rcases hpassed with hpassed | rfl
      · exact absurd (hjob.symm.trans hpassed) hdeadline
      · rfl

lemma work (h : Apart start received crew) (hpool : start.producer.memory.pool = none)
    {kind : JobKind} (hrouted : ∀ job ∈ crew.waiting kind, workFor job.event.kind = kind) :
    Apart start received (crew.work kind) := by
  unfold Crew.work
  cases hwaiting : crew.waiting kind with
  | nil => exact h
  | cons job rest =>
    have hjob := hrouted job (hwaiting ▸ List.mem_cons_self)
    by_cases hkind : ∃ d : Direction, kind = d.work
    · obtain ⟨d, rfl⟩ := hkind
      exact h.build hpool hjob rest
    · exact h.pass (not_exists.mp hkind) hjob rest

/-- A packet is received as it would be if nothing had come in for the other direction. -/
lemma receive (h : Apart start received crew) : ∃ received, Apart start received crew.receive := by
  unfold Crew.receive Run.receiveNext
  cases hqueue : crew.run.queue with
  | nil => exact ⟨received, h⟩
  | cons packet queue =>
    obtain ⟨d, hd⟩ : ∃ d, packetDirection packet = d := ⟨_, rfl⟩
    have htwins := RadioUnit.twins_receive crew.run.plan hd (RadioUnit.Twins.begin (h.radio d))
    rw [h.plan_eq] at htwins
    have hsent := h.sent
    rw [hqueue] at hsent
    refine ⟨Function.update received d (received d ++ [packet]), h.plan_eq, h.pool, h.routed,
      h.producer, h.counts, fun other => ?_, fun other => ?_, ?_, h.ulDeadlines⟩
    · refine Eq.trans ?_ (hsent other)
      by_cases heq : other = d
      · subst heq
        rw [Function.update_self, List.append_assoc, List.filter_cons_of_pos (by simpa using hd)]
        rfl
      · rw [Function.update_of_ne heq, List.filter_cons_of_neg (by simpa [hd] using Ne.symm heq)]
    · dsimp only
      rw [h.plan_eq]
      by_cases heq : other = d
      · subst heq
        rw [Function.update_self, Run.heard_concat]
        exact htwins.own
      · rw [Function.update_of_ne heq]
        refine (htwins.other_left.symm.mono ?_).trans (h.radio other)
        rintro key rfl
        exact heq
    · dsimp only
      rw [h.plan_eq]
      have hcounts := htwins.counts
      cases d with
      | dl =>
        rw [Function.update_self, Run.heard_concat, Function.update_of_ne (by decide)]
        exact h.radioCounts.trans hcounts
      | ul =>
        rw [Function.update_self, Run.heard_concat, Function.update_of_ne (by decide)]
        exact (h.radioCounts.swap.trans hcounts).swap

end Apart

/-- The jobs that a run hands out are given to the workers of their kind. -/
lemma routed_handed {config : Config} (h : Run.create config = .ok start) (n : ℕ) (kind : JobKind) :
    ∀ job ∈ handed start n kind, workFor job.event.kind = kind := by
  obtain ⟨plan, store, -, -, -, rfl⟩ := Run.create_eq_ok.mp h
  intro job hjob
  obtain ⟨i, -, hi⟩ := List.mem_flatMap.mp hjob
  obtain ⟨x, hx, rfl⟩ := List.mem_map.mp hi
  obtain ⟨hdue, hkind⟩ := List.mem_filter.mp hx
  obtain ⟨y, hy, rfl⟩ := List.mem_map.mp hdue
  rw [← Run.job_of_mem_due hy]
  exact of_decide_eq_true hkind

/-- Whatever happens, a crew stays on time and its state falls apart. -/
lemma Apart.play {config : Config} (hcreate : Run.create config = .ok start)
    (hpool : start.producer.memory.pool = none) (h : Apart start received crew)
    (htime : OnTime start n crew) (actions : List Action) :
    ∃ received, Apart start received (crew.play actions) := by
  induction actions generalizing n crew received with
  | nil => exact ⟨received, h⟩
  | cons action actions ih =>
    cases action with
    | tick => exact ih h.tick htime.tick
    | work kind =>
      refine ih (h.work hpool fun job hjob => ?_) (htime.work kind)
      refine routed_handed hcreate n kind job ?_
      rw [← htime.handed_eq kind]
      exact List.mem_append_right _ hjob
    | receive =>
      obtain ⟨received, h⟩ := h.receive
      exact ih h htime.receive

end Crew

/-! ## Runs that end alike -/

/-- Runs whose ends cannot be told apart. -/
structure Run.Alike (left right : Run) : Prop where
  summary_eq : left.summary = right.summary
  sequence_eq : ∀ flow, left.producer.nextSequence flow = right.producer.nextSequence flow
  sent_eq : ∀ key, left.producer.store.entries key = right.producer.store.entries key
  received_eq : ∀ key, left.radio.store.entries key = right.radio.store.entries key

namespace Crew

variable {start : Run} {crew other : Crew} {n : ℕ}

/-- Two crews that have nothing left to do end alike. -/
lemma Apart.alike {received received' : Direction → List Bytes} (h : Apart start received crew)
    (htime : OnTime start n crew) (hidle : crew.Idle) (h' : Apart start received' other)
    (htime' : OnTime start n other) (hidle' : other.Idle) : Run.Alike crew.run other.run := by
  have halone (kind : JobKind) : crew.alone start kind = other.alone start kind := by
    have hdone := (htime.handed_eq kind).trans (htime'.handed_eq kind).symm
    rw [hidle.waiting, hidle'.waiting, List.append_nil, List.append_nil] at hdone
    rw [alone, alone, hdone]
  have hreceived (d : Direction) : received d = received' d := by
    have hsent := h.sent d
    have hsent' := h'.sent d
    rw [hidle.queue, List.filter_nil, List.append_nil] at hsent
    rw [hidle'.queue, List.filter_nil, List.append_nil] at hsent'
    rw [hsent, hsent', halone]
  have hproducer (d : Direction) : Producer.AgreesOn (· = d) crew.run.producer other.run.producer :=
    (h.producer d).trans (halone d.work ▸ (h'.producer d).symm)
  have hradio (d : Direction) : RadioUnit.AgreesOn (· = d) crew.run.radio other.run.radio :=
    (h.radio d).trans (hreceived d ▸ (h'.radio d).symm)
  have hcounts : crew.run.producer.counts = other.run.producer.counts := by
    refine h.counts.eq ?_
    rw [halone, halone]
    exact h'.counts
  have hradioCounts : crew.run.radio.counts = other.run.radio.counts := by
    refine h.radioCounts.eq ?_
    rw [hreceived, hreceived]
    exact h'.radioCounts
  refine ⟨?_, fun flow => (hproducer flow.direction).sequence flow rfl,
    fun key => (hproducer key.direction).store.entries_eq key rfl,
    fun key => (hradio key.direction).entries_eq key rfl⟩
  rw [Run.summary, Run.summary, hcounts, hradioCounts, htime.clock_eq, htime'.clock_eq,
    htime.scheduler_eq, htime'.scheduler_eq, h.ulDeadlines, h'.ulDeadlines, halone]

end Crew

/-! ## Everything at once -/

namespace Run

lemma ticks_succ (run : Run) (n : ℕ) : run.ticks (n + 1) = (run.ticks n).tick := by
  induction n generalizing run with
  | zero => rfl
  | succ n ih => exact ih run.tick

/-- A tick performs what is due, in order, and then receives what was sent. -/
lemma tick_eq (run : Run) : run.tick =
    ((run.scheduler.due run.clock.now).foldl (fun (run : Run) x => run.perform x.2)
      { run with scheduler := run.scheduler.ticked run.clock.now, clock := run.clock.tick }
      ).receiveAll := by
  have htakes : Scheduler.Takes collect fun events _ event => events ++ [event] :=
    fun _ _ _ => rfl
  have hevents (xs : List (JobKind × SymbolEvent)) :
      xs.foldl (fun events x => events ++ [x.2]) [] = xs.map Prod.snd := by
    induction xs using List.reverseRecOn with
    | nil => rfl
    | append_singleton xs x ih => rw [List.foldl_concat, ih, List.map_append, List.map_singleton]
  rw [tick, handOut, Scheduler.run_tick_of_takes htakes]
  dsimp only
  rw [hevents, List.foldl_map]

end Run

namespace Crew

variable {start : Run} {n : ℕ}

lemma play_append (crew : Crew) (actions more : List Action) :
    crew.play (actions ++ more) = (crew.play actions).play more :=
  List.foldl_append

/-- The workers perform what waits in the order in which it was handed out. -/
lemma play_work (jobs : List (JobKind × Job)) {crew : Crew}
    (h : ∀ kind, crew.waiting kind = ofKind kind jobs) :
    (crew.play (jobs.map fun x => .work x.1)).run =
        jobs.foldl (fun run x => run.perform x.2.event) crew.run ∧
      ∀ kind, (crew.play (jobs.map fun x => .work x.1)).waiting kind = [] := by
  induction jobs generalizing crew with
  | nil => exact ⟨rfl, h⟩
  | cons x jobs ih =>
    have hwork : crew.work x.1 = crew.perform x.1 x.2 (ofKind x.1 jobs) := by
      unfold work
      rw [h x.1, ofKind_cons, if_pos rfl]
      rfl
    have hrest (kind : JobKind) :
        (crew.perform x.1 x.2 (ofKind x.1 jobs)).waiting kind = ofKind kind jobs := by
      show Function.update crew.waiting x.1 (ofKind x.1 jobs) kind = ofKind kind jobs
      by_cases hkind : kind = x.1
      · subst hkind
        rw [Function.update_self]
      · rw [Function.update_of_ne hkind, h kind, ofKind_cons, if_neg (Ne.symm hkind)]
        rfl
    rw [← hwork] at hrest
    have hrun : (crew.work x.1).run = crew.run.perform x.2.event := by rw [hwork]; rfl
    rw [List.foldl_cons, ← hrun]
    exact ih hrest

/-- The radio unit takes in what was sent in the order in which it was sent. -/
lemma play_receive (crew : Crew) :
    crew.play (List.replicate crew.run.queue.length .receive) =
      { crew with run := crew.run.receiveAll } := by
  obtain ⟨run, waiting, done⟩ := crew
  obtain ⟨queue, hqueue⟩ : ∃ queue, run.queue = queue := ⟨_, rfl⟩
  induction queue generalizing run with
  | nil =>
    obtain ⟨plan, clock, scheduler, producer, _, radio, ulDeadlines⟩ := run
    subst hqueue
    rfl
  | cons packet queue ih =>
    obtain ⟨plan, clock, scheduler, producer, _, radio, ulDeadlines⟩ := run
    subst hqueue
    exact ih ⟨plan, clock, scheduler, producer, queue, radio.receive plan packet, ulDeadlines⟩ rfl

/-- A crew with nothing left to do that does everything at once on a tick is a run. -/
lemma exists_play_tick {crew : Crew} (h : crew.Idle) :
    ∃ actions, actions.count .tick = 1 ∧ (crew.play actions).Idle ∧
      (crew.play actions).run = crew.run.tick := by
  let jobs := (crew.run.scheduler.due crew.run.clock.now).map fun x =>
    (x.1, (⟨crew.run.clock.symbols, x.2⟩ : Job))
  have hwaiting (kind : JobKind) : crew.tick.waiting kind = ofKind kind jobs := by
    rw [tick_eq]
    show crew.waiting kind ++ _ = _
    rw [h.waiting]
    rfl
  obtain ⟨hrun, hnone⟩ := play_work jobs hwaiting
  let worked := crew.tick.play (jobs.map fun x => .work x.1)
  have hplay : crew.play (.tick :: (jobs.map fun x => .work x.1) ++
      List.replicate worked.run.queue.length .receive) =
        { worked with run := worked.run.receiveAll } := by
    rw [play_append, ← play_receive]
    rfl
  refine ⟨.tick :: (jobs.map fun x => .work x.1) ++
      List.replicate worked.run.queue.length .receive, ?_, ?_, ?_⟩
  · have hwork : (jobs.map fun x => Action.work x.1).count .tick = 0 :=
      List.count_eq_zero.mpr (by simp)
    have hreceive : (List.replicate worked.run.queue.length Action.receive).count .tick = 0 :=
      List.count_eq_zero.mpr (by simp)
    rw [List.cons_append, List.count_cons_self, List.count_append, hwork, hreceive]
  · rw [hplay]
    exact ⟨hnone, rfl⟩
  · rw [hplay, Run.tick_eq]
    show worked.run.receiveAll = _
    rw [hrun, List.foldl_map, tick_eq]

/-- A run is a crew that does everything at once. -/
lemma exists_play_ticks (hqueue : start.queue = []) (n : ℕ) :
    ∃ actions, actions.count .tick = n ∧ ((ofRun start).play actions).Idle ∧
      ((ofRun start).play actions).run = start.ticks n := by
  induction n with
  | zero => exact ⟨[], rfl, ⟨fun _ => rfl, hqueue⟩, rfl⟩
  | succ n ih =>
    obtain ⟨actions, hcount, hidle, hrun⟩ := ih
    obtain ⟨more, hmore, hidle', hrun'⟩ := exists_play_tick hidle
    refine ⟨actions ++ more, ?_, ?_, ?_⟩
    · rw [List.count_append, hcount, hmore]
    · rw [play_append]
      exact hidle'
    · rw [play_append, hrun', hrun, Run.ticks_succ]

/-- It does not matter how the jobs of the directions and the receipt of packets interleave: when
nothing is left to do, counts, sequence numbers and buckets of both sides are those of a run that
does everything at once, whether builds fail or not. -/
theorem alike_ticks {config : Config} (h : Run.create config = .ok start) (actions : List Action)
    (hidle : ((ofRun start).play actions).Idle) :
    Run.Alike ((ofRun start).play actions).run (start.ticks (actions.count .tick)) := by
  obtain ⟨hpool, hqueue⟩ : start.producer.memory.pool = none ∧ start.queue = [] := by
    obtain ⟨plan, store, -, -, -, rfl⟩ := Run.create_eq_ok.mp h
    exact ⟨rfl, rfl⟩
  obtain ⟨atOnce, hcount, hidle', hrun⟩ := exists_play_ticks hqueue (actions.count .tick)
  have hstart := Apart.ofRun hpool hqueue
  obtain ⟨received, hapart⟩ := hstart.play h hpool (.ofRun start) actions
  obtain ⟨received', hapart'⟩ := hstart.play h hpool (.ofRun start) atOnce
  have htime := (OnTime.ofRun start).play actions
  have htime' := (OnTime.ofRun start).play atOnce
  rw [hcount] at htime'
  rw [← hrun]
  exact hapart.alike htime hidle hapart' htime' hidle'

namespace LateDownlink

/-- One flow for each direction; the second downlink element has a beam that cannot be written. -/
def config : Config where
  antennas := 1
  dlElements := [{ numPrb := 100 }, { startPrb := 100, numPrb := 100, beam := 32768 }]

/-- The jobs of a symbol wait; the uplink is built on the next one, and the downlink a symbol
later. -/
def actions : List Action :=
  [.tick, .tick, .tick, .work .ulControl, .tick, .work .dlControl, .receive, .work .deadline]

/-- The downlink fails after its first element, and only the packet of the uplink is received. -/
theorem alike_ticks_lateDownlink : ∃ start, Run.create config = .ok start ∧
    ((ofRun start).play actions).run.producer.counts.packets = 2 ∧
    ((ofRun start).play actions).run.radio.counts.packets = 1 ∧
    ((ofRun start).play actions).Idle ∧
    Run.Alike ((ofRun start).play actions).run (start.ticks 4) := by
  have hend : ((Run.create config).toOption.map fun start =>
      let crew := (ofRun start).play actions
      (crew.run.producer.counts.packets, crew.run.radio.counts.packets, crew.run.queue.isEmpty,
        [JobKind.dlControl, .ulControl, .deadline, .application].all fun kind =>
          (crew.waiting kind).isEmpty)) = some (2, 1, true, true) := by
    decide +kernel
  rcases hcreate : Run.create config with e | start
  · rw [hcreate] at hend
    cases hend
  · rw [hcreate] at hend
    simp only [Except.toOption, Option.map_some, Option.some.injEq, Prod.mk.injEq,
      List.isEmpty_iff, List.all_cons, List.all_nil, Bool.and_eq_true] at hend
    obtain ⟨hpackets, hreceived, hqueue, hdl, hul, hdeadline, happlication, -⟩ := hend
    have hidle : ((ofRun start).play actions).Idle := by
      refine ⟨fun kind => ?_, hqueue⟩
      cases kind with
      | dlControl => exact hdl
      | ulControl => exact hul
      | deadline => exact hdeadline
      | application => exact happlication
    have hcount : actions.count .tick = 4 := by decide
    have halike := alike_ticks hcreate actions hidle
    rw [hcount] at halike
    exact ⟨start, rfl, hpackets, hreceived, hidle, halike⟩

end LateDownlink

end Crew

end OpenFronthaul
