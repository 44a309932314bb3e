import OpenFronthaul.Proofs.Emulation.Parts
import OpenFronthaul.Proofs.Emulation.Schedule

/-!
# How a bucket fills

The parts of the slots of one rotation context are handed out in cycles of four slots, from the first
part of a slot on.  So what the jobs leave in a bucket is a stretch of the elements that reaches to
the end of the latest part, and it begins with the first element as soon as a cycle began at its
first part (`Crew.content_handed`).  In particular it never has more sections than the map has
elements, however many of the jobs were performed (`Crew.length_content_le`).
-/

namespace OpenFronthaul

/-! ## Lists -/

/-- A stretch of a list behind another one that it follows. -/
lemma drop_take_append {α : Type} (xs : List α) {first middle last : ℕ} (h : first ≤ middle)
    (h' : middle ≤ last) :
    (xs.take middle).drop first ++ (xs.take last).drop middle = (xs.take last).drop first := by
  obtain ⟨more, rfl⟩ := Nat.exists_eq_add_of_le h
  have hmiddle : xs.take (first + more) = (xs.take last).take (first + more) := by
    rw [List.take_take, Nat.min_eq_left h']
  rw [hmiddle, List.drop_take, Nat.add_sub_cancel_left, List.drop_take_append_drop]

/-- Of pieces that have at most one entry of some kind each, the first entries of this kind are those
of the first pieces. -/
lemma exists_filter_eq {α : Type} {f : ℕ → List α} {p : α → Bool}
    (hone : ∀ i, ((f i).filter p).length ≤ 1) {l : List α} {n : ℕ}
    (h : l <+: (List.range n).flatMap f) :
    ∃ m ≤ n, l.filter p = ((List.range m).flatMap f).filter p := by
  induction n with
  | zero => exact ⟨0, le_rfl, by rw [List.prefix_nil.mp h]; rfl⟩
  | succ n ih =>
    have hsucc : (List.range (n + 1)).flatMap f = (List.range n).flatMap f ++ f n := by
      rw [List.range_succ, List.flatMap_append, List.flatMap_singleton]
    rw [hsucc] at h
    rcases List.prefix_or_prefix_of_prefix h (List.prefix_append _ _) with hshort | ⟨more, rfl⟩
    · obtain ⟨m, hm, heq⟩ := ih hshort
      exact ⟨m, Nat.le_succ_of_le hm, heq⟩
    · have hmore : more.filter p <+: (f n).filter p :=
        ((List.prefix_append_right_inj _).mp h).filter p
      rw [List.filter_append]
      by_cases hnil : more.filter p = []
      · exact ⟨n, Nat.le_succ n, by rw [hnil, List.append_nil]⟩
      · -- there is nothing behind the one entry of the last piece
        have hpos : 0 < (more.filter p).length := List.length_pos_of_ne_nil hnil
        have hlast : more.filter p = (f n).filter p :=
          hmore.eq_of_length_le ((hone n).trans hpos)
        exact ⟨n + 1, le_rfl, by rw [hsucc, List.filter_append, hlast]⟩

/-! ## What jobs leave in a bucket -/

namespace Plan

variable {plan : Plan} {d : Direction}

/-- The sections of a direction, one for each element. -/
def sections (plan : Plan) (d : Direction) : List Section :=
  (plan.map d).elements.zipIdx.map (Producer.elementRecord plan.config.category)

/-- What jobs leave in the buckets of a rotation context. -/
def content (plan : Plan) (d : Direction) (context : UInt8) (jobs : List Job) : List Section :=
  (jobs.filter (·.event.context = context)).foldl
    (fun bucket job => plan.refill d bucket job.event) []

lemma length_sections (plan : Plan) (d : Direction) :
    (plan.sections d).length = (plan.map d).size := by
  rw [sections, List.length_map, List.length_zipIdx, PrbMap.size]

lemma content_append (plan : Plan) (d : Direction) (context : UInt8) (jobs more : List Job) :
    plan.content d context (jobs ++ more) =
      (more.filter (·.event.context = context)).foldl
        (fun bucket job => plan.refill d bucket job.event) (plan.content d context jobs) := by
  rw [content, List.filter_append, List.foldl_append]
  rfl

lemma content_concat (plan : Plan) (d : Direction) (context : UInt8) (jobs : List Job) (job : Job) :
    plan.content d context (jobs ++ [job]) =
      if job.event.context = context then plan.refill d (plan.content d context jobs) job.event
      else plan.content d context jobs := by
  rw [content_append, List.filter_singleton]
  by_cases h : job.event.context = context
  · simp [h]
  · simp [h]

/-- The sections of a part that there is. -/
lemma partSections_eq {event : SymbolEvent} (h : event.part < event.parts) :
    plan.partSections d event =
      ((plan.sections d).take ((plan.map d).size * (event.part + 1) / event.parts)).drop
        ((plan.map d).size * event.part / event.parts) := by
  have hparts : max event.parts 1 = event.parts := by omega
  have hpart : min event.part (event.parts - 1) = event.part := by omega
  rw [partSections, partElements, PrbMap.partRange, hparts, hpart, List.map_drop, List.map_take]
  rfl

end Plan

/-! ## Cycles -/

namespace Config

variable {config : Config} {d : Direction} {context symbols : ℕ}

/-- The symbols since the first part of the latest slot of a rotation context, from one on. -/
def cycle (config : Config) (d : Direction) (context symbols : ℕ) : ℕ :=
  if config.phase d context symbols = 0 then 56 else config.phase d context symbols

lemma cycle_succ (config : Config) (d : Direction) (context symbols : ℕ) :
    config.cycle d context (symbols + 1) = config.phase d context symbols + 1 := by
  unfold cycle phase
  split_ifs <;> push_cast at * <;> omega

lemma cycle_pos (config : Config) (d : Direction) (context symbols : ℕ) :
    0 < config.cycle d context symbols := by
  unfold cycle
  split_ifs with h
  · decide
  · exact Nat.pos_of_ne_zero h

end Config

namespace Crew

variable {config : Config} {start : Run} {d : Direction}

lemma content_handed_succ (h : Run.create config = .ok start)
    (hrole : config.role = .distributedUnit) (hparts : config.parts d ≤ 56) {context : ℕ}
    (hcontext : context < 4) (n : ℕ) :
    start.plan.content d (UInt8.ofNat context) (handed start (n + 1) d.work) =
      if config.phase d context n < config.parts d then
        start.plan.refill d (start.plan.content d (UInt8.ofNat context) (handed start n d.work))
          (config.partJob d n (config.phase d context n)).event
      else start.plan.content d (UInt8.ofNat context) (handed start n d.work) := by
  rw [handed_succ, Plan.content_append, filter_context h hrole hparts hcontext]
  split_ifs <;> rfl

/-- The number of elements up to the end of the latest part. -/
def reached (config : Config) (plan : Plan) (d : Direction) (context n : ℕ) : ℕ :=
  (plan.map d).size * min (config.cycle d context n) (config.parts d) / config.parts d

/-- A bucket has the sections up to the end of the latest part, from the first one on if there was a
first part in the cycle. -/
def Holds (config : Config) (plan : Plan) (d : Direction) (context n : ℕ) (bucket : List Section) :
    Prop :=
  ∃ first ≤ reached config plan d context n,
    bucket = ((plan.sections d).take (reached config plan d context n)).drop first ∧
      (config.cycle d context n ≤ n → first = 0)

section Holds

variable {plan : Plan} {context n : ℕ} {bucket : List Section}

lemma reached_succ (config : Config) (plan : Plan) (d : Direction) (context n : ℕ) :
    reached config plan d context (n + 1) =
      (plan.map d).size * min (config.phase d context n + 1) (config.parts d) / config.parts d := by
  rw [reached, Config.cycle_succ]

lemma partSections_partJob (plan : Plan) (symbols : ℕ) {part : ℕ} (h : part < config.parts d) :
    plan.partSections d (config.partJob d symbols part).event =
      ((plan.sections d).take ((plan.map d).size * (part + 1) / config.parts d)).drop
        ((plan.map d).size * part / config.parts d) :=
  Plan.partSections_eq h

/-- Before the first tick there is nothing. -/
lemma holds_zero (config : Config) (plan : Plan) (d : Direction) (context : ℕ) :
    Holds config plan d context 0 [] := by
  refine ⟨reached config plan d context 0, le_rfl, ?_, fun hcycle => ?_⟩
  · rw [List.drop_eq_nil_iff.mpr (List.length_take_le _ _)]
  · exact absurd (config.cycle_pos d context 0) (Nat.not_lt_of_le hcycle)

/-- The first part of a slot begins anew. -/
lemma holds_refill_first (hphase : config.phase d context n = 0) (bucket : List Section) :
    Holds config plan d context (n + 1)
      (plan.refill d bucket (config.partJob d n (config.phase d context n)).event) := by
  have hpos := config.parts_pos d
  have hkept : Plan.kept (config.partJob d n 0).event bucket = [] := rfl
  refine ⟨0, Nat.zero_le _, ?_, fun _ => rfl⟩
  rw [hphase, Plan.refill, hkept, partSections_partJob plan n hpos, reached_succ, hphase,
    Nat.min_eq_left hpos, Nat.mul_zero, Nat.zero_div]
  rfl

/-- Any other part goes on where the part before it ended. -/
lemma Holds.refill (h : Holds config plan d context n bucket)
    (hphase : config.phase d context n ≠ 0) (hlt : config.phase d context n < config.parts d) :
    Holds config plan d context (n + 1)
      (plan.refill d bucket (config.partJob d n (config.phase d context n)).event) := by
  obtain ⟨first, hfirst, rfl, hzero⟩ := h
  have hcycle : config.cycle d context n = config.phase d context n := if_neg hphase
  have hbefore : reached config plan d context n =
      (plan.map d).size * config.phase d context n / config.parts d := by
    rw [reached, hcycle, Nat.min_eq_left hlt.le]
  have hle : reached config plan d context n ≤
      (plan.map d).size * (config.phase d context n + 1) / config.parts d := by
    rw [hbefore]
    exact Nat.div_le_div_right (Nat.mul_le_mul_left _ (Nat.le_succ _))
  have hkept (bucket : List Section) :
      Plan.kept (config.partJob d n (config.phase d context n)).event bucket = bucket :=
    if_neg hphase
  rw [Plan.refill, hkept, partSections_partJob plan n hlt, ← hbefore,
    drop_take_append _ hfirst hle]
  rw [Holds, reached_succ, Nat.min_eq_left (Nat.succ_le_of_lt hlt), Config.cycle_succ]
  exact ⟨first, hfirst.trans hle, rfl, fun hbegun => hzero (by omega)⟩

/-- When all parts of a slot were handed out the bucket stays. -/
lemma Holds.stay (h : Holds config plan d context n bucket)
    (hge : config.parts d ≤ config.phase d context n) :
    Holds config plan d context (n + 1) bucket := by
  have hpos := config.parts_pos d
  have hcycle : config.cycle d context n = config.phase d context n := if_neg (by omega)
  have hsame : reached config plan d context (n + 1) = reached config plan d context n := by
    rw [reached_succ, reached, hcycle, Nat.min_eq_right (by omega), Nat.min_eq_right hge]
  obtain ⟨first, hfirst, hcontent, hzero⟩ := h
  rw [Holds, hsame, Config.cycle_succ]
  exact ⟨first, hfirst, hcontent, fun hbegun => hzero (by omega)⟩

end Holds

/-- After some ticks the buckets of a rotation context have the sections up to the end of the latest
part, from the first one on if there was a first part in the cycle. -/
theorem content_handed (h : Run.create config = .ok start)
    (hrole : config.role = .distributedUnit) (hparts : config.parts d ≤ 56) {context : ℕ}
    (hcontext : context < 4) (n : ℕ) :
    Holds config start.plan d context n
      (start.plan.content d (UInt8.ofNat context) (handed start n d.work)) := by
  induction n with
  | zero => exact holds_zero config start.plan d context
  | succ n ih =>
    rw [content_handed_succ h hrole hparts hcontext]
    by_cases hlt : config.phase d context n < config.parts d
    · rw [if_pos hlt]
      by_cases hphase : config.phase d context n = 0
      · exact holds_refill_first hphase _
      · exact ih.refill hphase hlt
    · rw [if_neg hlt]
      exact ih.stay (Nat.le_of_not_lt hlt)

lemma length_filter_due_le (h : Run.create config = .ok start)
    (hrole : config.role = .distributedUnit) (hparts : config.parts d ≤ 56) {context : ℕ}
    (hcontext : context < 4) (n : ℕ) :
    ((ofKind d.work (due start n)).filter (·.event.context = UInt8.ofNat context)).length ≤ 1 := by
  rw [filter_context h hrole hparts hcontext]
  split_ifs
  · exact le_rfl
  · exact Nat.zero_le _

/-- Jobs that were performed in order leave in the buckets of a rotation context what all jobs of some
number of ticks leave there. -/
lemma exists_content_eq (h : Run.create config = .ok start)
    (hrole : config.role = .distributedUnit) (hparts : config.parts d ≤ 56) {context : ℕ}
    (hcontext : context < 4) {jobs : List Job} {n : ℕ} (hjobs : jobs <+: handed start n d.work) :
    ∃ m ≤ n, jobs.filter (·.event.context = UInt8.ofNat context) =
        (handed start m d.work).filter (·.event.context = UInt8.ofNat context) ∧
      start.plan.content d (UInt8.ofNat context) jobs =
        start.plan.content d (UInt8.ofNat context) (handed start m d.work) := by
  obtain ⟨m, hm, hfilter⟩ := exists_filter_eq
    (length_filter_due_le h hrole hparts hcontext) hjobs
  refine ⟨m, hm, hfilter, ?_⟩
  rw [Plan.content, hfilter]
  rfl

/-- No bucket ever has more sections than the map has elements. -/
lemma length_content_le (h : Run.create config = .ok start)
    (hrole : config.role = .distributedUnit) (hparts : config.parts d ≤ 56) {context : UInt8}
    (hcontext : context.toNat < rotationContexts) {jobs : List Job} {n : ℕ}
    (hjobs : jobs <+: handed start n d.work) :
    (start.plan.content d context jobs).length ≤ (start.plan.map d).size := by
  rw [← UInt8.ofNat_toNat (x := context)]
  obtain ⟨m, -, -, hcontent⟩ := exists_content_eq h hrole hparts hcontext hjobs
  obtain ⟨first, -, hstretch, -⟩ := content_handed h hrole hparts hcontext m
  rw [hcontent, hstretch, List.length_drop, List.length_take, Plan.length_sections]
  omega

end Crew

end OpenFronthaul
