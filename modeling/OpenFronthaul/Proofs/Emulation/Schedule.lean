import OpenFronthaul.Proofs.Emulation.Crew
import OpenFronthaul.Proofs.Emulation.Start
import Mathlib.Tactic

/-!
# When parts are built

The control messages of a direction are built in parts, one symbol after another from a first
position on (`Config.opening`), so that the part of a slot and the slot tell the tick on which it is
handed out (`Crew.isPart_iff`).  The slots of a rotation context are four slots apart.  When
there are at most as many parts as these have symbols, a tick hands out at most one part for the
context: the one whose number is the distance from the first position (`filter_context`).
-/

namespace OpenFronthaul

open Scheduler (Deadline)

/-! ## Deadlines of parts -/

namespace Config

variable {config : Config} {d : Direction}

/-- The deadlines that follow from a configuration. -/
def table (config : Config) : DeadlineTable :=
  .derive config.budget config.mu

/-- When the parts of the control messages of a direction are built. -/
def partOffsets (config : Config) (d : Direction) : List SymbolOffset :=
  match d with
  | .dl =>
    match config.dlMode with
    | .burst => [config.table.dlControl]
    | .spread => config.table.dlControlSpread
  | .ul => [config.table.ulControl]

/-- The number of parts of the control messages of a direction. -/
def parts (config : Config) (d : Direction) : ℕ :=
  (config.partOffsets d).length

/-- The position of the first part. -/
def opening (config : Config) (d : Direction) : ℤ :=
  match d with
  | .dl => config.table.dlControl.position
  | .ul => config.table.ulControl.position

/-- The deadline of a part. -/
def partDeadline (config : Config) (d : Direction) (part : ℕ) : Deadline where
  offset := .ofPosition (config.opening d + part)
  kind := d.control
  job := d.work
  part
  parts := config.parts d

/-- The parts follow one another on the symbols from the first position on. -/
lemma partOffsets_eq (config : Config) (d : Direction) : config.partOffsets d =
    (List.range (config.parts d)).map fun (part : ℕ) => .ofPosition (config.opening d + part) := by
  have hwhole {o : SymbolOffset} (h : o.symbol < symbolsPerSlot) :
      [o] = (List.range 1).map fun (part : ℕ) => SymbolOffset.ofPosition (o.position + part) := by
    simp [SymbolOffset.ofPosition_position h]
  unfold parts partOffsets opening
  cases d with
  | dl =>
    cases config.dlMode with
    | burst => exact hwhole (symbol_beforeAir_lt _ _ _)
    | spread => exact spreadBefore_eq _ _ _
  | ul => exact hwhole (symbol_beforeAir_lt _ _ _)

lemma getElem?_partOffsets {part : ℕ} (h : part < config.parts d) :
    (config.partOffsets d)[part]? = some (.ofPosition (config.opening d + part)) := by
  rw [partOffsets_eq]
  simp [h]

lemma parts_pos (config : Config) (d : Direction) : 0 < config.parts d := by
  unfold parts partOffsets
  cases d with
  | dl =>
    cases config.dlMode with
    | burst => exact Nat.one_pos
    | spread => exact length_spreadBefore_pos _ _ _
  | ul => exact Nat.one_pos

/-- The deadlines of a distributed unit. -/
lemma deadlines_eq (h : config.role = .distributedUnit) :
    config.deadlines = (config.partOffsets .dl).zipIdx.map (fun x =>
        ⟨x.1, .dlControl, .dlControl, x.2, config.parts .dl⟩) ++
      [⟨config.table.ulControl, .ulControl, .ulControl, 0, 1⟩,
        ⟨config.table.ulFull, .ulArrived, .deadline, 0, 1⟩,
        ⟨config.table.ulHalf, .ulHalfArrived, .deadline, 0, 1⟩] := by
  unfold deadlines parts partOffsets
  rw [h]
  cases config.dlMode <;> rfl

/-- The deadlines of a distributed unit build for a direction or are those of the reception. -/
lemma mem_deadlines {x : Deadline} (hrole : config.role = .distributedUnit)
    (hx : x ∈ config.deadlines) : (∃ d : Direction, x.job = d.work) ∨
      x.job = .deadline ∧ (x.kind = .ulArrived ∨ x.kind = .ulHalfArrived) := by
  rw [deadlines_eq hrole, List.mem_append] at hx
  rcases hx with hx | hx
  · obtain ⟨y, -, rfl⟩ := List.mem_map.mp hx
    exact .inl ⟨.dl, rfl⟩
  · simp only [List.mem_cons, List.not_mem_nil, or_false] at hx
    rcases hx with rfl | rfl | rfl
    · exact .inl ⟨.ul, rfl⟩
    · exact .inr ⟨rfl, .inl rfl⟩
    · exact .inr ⟨rfl, .inr rfl⟩

/-- The deadlines of a distributed unit on which a direction is built. -/
lemma filter_deadlines (h : config.role = .distributedUnit) (d : Direction) :
    config.deadlines.filter (·.job = d.work) =
      (List.range (config.parts d)).map (config.partDeadline d) := by
  have hparts : (List.range (config.parts d)).map (config.partDeadline d) =
      (config.partOffsets d).zipIdx.map fun x =>
        ⟨x.1, d.control, d.work, x.2, config.parts d⟩ := by
    rw [partOffsets_eq]
    refine List.ext_getElem (by simp) fun i hi hi' => ?_
    simp [partDeadline]
  have hdl : ∀ x ∈ (config.partOffsets .dl).zipIdx.map (fun x =>
      (⟨x.1, .dlControl, .dlControl, x.2, config.parts .dl⟩ : Deadline)), x.job = .dlControl := by
    intro x hx
    obtain ⟨y, -, rfl⟩ := List.mem_map.mp hx
    rfl
  rw [hparts, deadlines_eq h, List.filter_append]
  cases d with
  | dl =>
    have hall := List.filter_eq_self.mpr fun x hx => decide_eq_true (hdl x hx)
    exact (congrArg (· ++ _) hall).trans (List.append_nil _)
  | ul =>
    rw [List.filter_eq_nil_iff.mpr fun x hx => by simp [hdl x hx, Direction.work]]
    rfl

/-! ## Jobs on a tick -/

/-- The job that a deadline hands out on a tick. -/
def jobOf (config : Config) (symbols : ℕ) (x : Deadline) : Job where
  symbols
  event := (Scheduler.create config.mu config.budget).event (AirClock.now ⟨config.mu, symbols⟩)
    (x.callback 0)

/-- A job is for the slot that lies as many slots behind its tick as its deadline says. -/
lemma target_jobOf (config : Config) (symbols : ℕ) (x : Deadline) :
    (config.jobOf symbols x).event.target =
      config.mu.wrapSlot ((symbols / 14 : ℕ) + x.offset.slots) :=
  Scheduler.target_event rfl symbols (x.callback 0)

lemma context_jobOf (config : Config) (symbols : ℕ) (x : Deadline) :
    (config.jobOf symbols x).event.context =
      UInt8.ofNat (((symbols / 14 : ℕ) + x.offset.slots) % 4).toNat :=
  Scheduler.context_event rfl symbols (x.callback 0)

end Config

namespace Crew

variable {config : Config} {start : Run} {d : Direction}

lemma due_eq (h : Run.create config = .ok start) (n : ℕ) :
    due start n = (config.deadlines.filter (·.offset.symbol = n % 14)).map fun x =>
      (x.job, config.jobOf n x) := by
  obtain ⟨plan, store, -, -, -, rfl⟩ := Run.create_eq_ok.mp h
  have hnow : (AirClock.advance ⟨config.mu, 0⟩ n) = ⟨config.mu, n⟩ :=
    congrArg (AirClock.mk _) (Nat.zero_add n)
  have hsymbols : (Run.fresh config plan store).clock.symbols + n = n := Nat.zero_add n
  have hclock : (Run.fresh config plan store).clock = ⟨config.mu, 0⟩ := rfl
  rw [due, Run.due_fresh, hsymbols, hclock, hnow, List.map_map]
  rfl

lemma ofKind_due (h : Run.create config = .ok start) (n : ℕ) (kind : JobKind) :
    ofKind kind (due start n) =
      ((config.deadlines.filter (·.job = kind)).filter (·.offset.symbol = n % 14)).map
        (config.jobOf n) := by
  rw [due_eq h, ofKind, List.filter_map, List.map_map, List.filter_comm]
  rfl

end Crew

/-! ## Parts on a tick -/

namespace Config

/-- The job that builds a part on a tick. -/
def partJob (config : Config) (d : Direction) (symbols part : ℕ) : Job :=
  config.jobOf symbols (config.partDeadline d part)

/-- The symbols from the first part of the latest slot of a rotation context to a tick. -/
def phase (config : Config) (d : Direction) (context symbols : ℕ) : ℕ :=
  ((symbols - config.opening d - 14 * context) % 56).toNat

/-- Whether a part is built on a symbol. -/
def IsDue (config : Config) (d : Direction) (symbols part : ℕ) : Prop :=
  (SymbolOffset.ofPosition (config.opening d + part)).symbol = symbols % 14

instance (config : Config) (d : Direction) (symbols : ℕ) :
    DecidablePred (config.IsDue d symbols) :=
  fun _ => inferInstanceAs (Decidable (_ = _))

variable {config : Config} {d : Direction}

/-- The parts of one rotation context are one cycle of four slots apart. -/
lemma isDue_context_iff {symbols part context : ℕ} (hpart : part < 56) (hcontext : context < 4) :
    config.IsDue d symbols part ∧
        (config.partJob d symbols part).event.context = UInt8.ofNat context ↔
      part = config.phase d context symbols := by
  have hslots : ((symbols / 14 : ℕ) + (SymbolOffset.ofPosition (config.opening d + part)).slots) % 4 =
      ((symbols / 14 : ℕ) - (config.opening d + part) / 14) % 4 := rfl
  have hsymbol : config.IsDue d symbols part ↔
      ((config.opening d + part) % 14).toNat = symbols % 14 := Iff.rfl
  have hcontext' : (config.partJob d symbols part).event.context = UInt8.ofNat context ↔
      (((symbols / 14 : ℕ) - (config.opening d + part) / 14) % 4).toNat = context := by
    rw [partJob, context_jobOf, ← UInt8.toNat_inj, UInt8.toNat_ofNat', UInt8.toNat_ofNat']
    show (((symbols / 14 : ℕ) - (config.opening d + part) / 14) % 4).toNat % 256 =
      context % 256 ↔ _
    omega
  rw [hsymbol, hcontext', phase]
  omega

end Config

namespace Crew

variable {config : Config} {start : Run} {d : Direction}

lemma ofKind_due_work (h : Run.create config = .ok start) (hrole : config.role = .distributedUnit)
    (n : ℕ) : ofKind d.work (due start n) =
      ((List.range (config.parts d)).filter (config.IsDue d n)).map (config.partJob d n) := by
  rw [ofKind_due h, Config.filter_deadlines hrole, List.filter_map, List.map_map]
  rfl

/-- On a tick at most one part is handed out for a rotation context. -/
theorem filter_context (h : Run.create config = .ok start) (hrole : config.role = .distributedUnit)
    (hparts : config.parts d ≤ 56) {context : ℕ} (hcontext : context < 4) (n : ℕ) :
    (ofKind d.work (due start n)).filter (·.event.context = UInt8.ofNat context) =
      if config.phase d context n < config.parts d then
        [config.partJob d n (config.phase d context n)] else [] := by
  rw [ofKind_due_work h hrole, List.filter_map, List.filter_filter]
  have hone : (List.range (config.parts d)).filter (fun part =>
      ((fun job : Job => decide (job.event.context = UInt8.ofNat context)) ∘ config.partJob d n) part
        && decide (config.IsDue d n part)) =
      (List.range (config.parts d)).filter (· = config.phase d context n) := by
    refine List.filter_congr fun part hpart => ?_
    have hlt := List.mem_range.mp hpart
    rw [Function.comp_apply, Bool.eq_iff_iff, Bool.and_eq_true, decide_eq_true_eq,
      decide_eq_true_eq, decide_eq_true_eq, and_comm, Config.isDue_context_iff (by omega) hcontext]
  rw [hone, filter_eq_range]
  split_ifs <;> rfl

end Crew

/-! ## Parts of a slot -/

/-- A job does a part of the work of a direction for a slot.  Slots are counted from the start of the
clock on and do not wrap. -/
def Job.IsPart (config : Config) (d : Direction) (slot part : ℕ) (job : Job) : Prop :=
  job.event.part = part ∧ ∃ o, (config.partOffsets d)[part]? = some o ∧
    ((job.symbols / 14 : ℕ) : ℤ) + o.slots = slot

instance (config : Config) (d : Direction) (slot part : ℕ) (job : Job) :
    Decidable (job.IsPart config d slot part) :=
  decidable_of_iff (job.event.part = part ∧ (config.partOffsets d)[part]?.any (fun o =>
    decide (((job.symbols / 14 : ℕ) : ℤ) + o.slots = slot)) = true)
    (by simp only [Job.IsPart, Option.any_eq_true, decide_eq_true_eq])

namespace Crew

variable {config : Config} {start : Run} {d : Direction} {n : ℕ} {job : Job}

lemma exists_of_mem_handed (h : Run.create config = .ok start)
    (hrole : config.role = .distributedUnit) (hjob : job ∈ handed start n d.work) :
    ∃ symbols < n, ∃ part < config.parts d, config.IsDue d symbols part ∧
      job = config.partJob d symbols part := by
  obtain ⟨symbols, hsymbols, hdue⟩ := List.mem_flatMap.mp hjob
  rw [ofKind_due_work h hrole] at hdue
  obtain ⟨part, hpart, rfl⟩ := List.mem_map.mp hdue
  obtain ⟨hrange, hisDue⟩ := List.mem_filter.mp hpart
  exact ⟨symbols, List.mem_range.mp hsymbols, part, List.mem_range.mp hrange,
    of_decide_eq_true hisDue, rfl⟩

/-- The tick of a job lies as many symbols behind the first position of its slot as there are parts
before it. -/
lemma isPart_iff (h : Run.create config = .ok start) (hrole : config.role = .distributedUnit)
    (hjob : job ∈ handed start n d.work) {slot part : ℕ} :
    job.IsPart config d slot part ↔
      job.event.part = part ∧ (job.symbols : ℤ) = 14 * slot + config.opening d + part := by
  obtain ⟨symbols, -, k, hk, hdue, rfl⟩ := exists_of_mem_handed h hrole hjob
  have hsymbol : ((config.opening d + k) % 14).toNat = symbols % 14 := hdue
  have hslots : (SymbolOffset.ofPosition (config.opening d + k)).slots =
      -((config.opening d + k) / 14) := rfl
  have hoffset := Config.getElem?_partOffsets hk
  show k = part ∧ (∃ o, (config.partOffsets d)[part]? = some o ∧
    ((symbols / 14 : ℕ) : ℤ) + o.slots = slot) ↔
      k = part ∧ (symbols : ℤ) = 14 * slot + config.opening d + part
  refine and_congr_right ?_
  rintro rfl
  constructor
  · rintro ⟨o, ho, hslot⟩
    obtain rfl := Option.some.inj (hoffset.symm.trans ho)
    omega
  · intro hsymbols
    exact ⟨_, hoffset, by omega⟩

/-- A job is told the slot that it does a part for. -/
lemma target_of_isPart (h : Run.create config = .ok start) (hrole : config.role = .distributedUnit)
    (hjob : job ∈ handed start n d.work) {slot part : ℕ} (hpart : job.IsPart config d slot part) :
    job.event.target = config.mu.wrapSlot slot ∧ job.event.parts = config.parts d := by
  obtain ⟨symbols, -, k, hk, hdue, rfl⟩ := exists_of_mem_handed h hrole hjob
  obtain ⟨rfl, o, ho, hslot⟩ := hpart
  refine ⟨?_, rfl⟩
  rw [Config.partJob, Config.target_jobOf, ← hslot]
  have hoffset := Config.getElem?_partOffsets hk
  obtain rfl := Option.some.inj (hoffset.symm.trans ho)
  rfl

end Crew

end OpenFronthaul
