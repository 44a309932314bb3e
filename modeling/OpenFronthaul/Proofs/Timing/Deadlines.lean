import OpenFronthaul.Proofs.Timing.Buckets

/-!
# Deadlines on symbols

The offsets of a deadline table come from delays by rounding, and a rounded delay may be one symbol
past its slot.  Each of them names a symbol of a slot nevertheless, so that an offset and its
position determine each other and every deadline has a bucket.
-/

namespace OpenFronthaul

/-! ## Offsets -/

theorem SymbolOffset.ofPosition_position {o : SymbolOffset} (h : o.symbol < symbolsPerSlot) :
    SymbolOffset.ofPosition o.position = o := by
  obtain ⟨symbol, slots⟩ := o
  simp only [ofPosition, position, symbolsPerSlot] at h ⊢
  rw [SymbolOffset.mk.injEq]
  constructor <;> omega

theorem position_carrySymbol (symbol : Nat) (slots : Int) :
    (carrySymbol symbol slots).position = symbol - symbolsPerSlot * slots := by
  unfold carrySymbol
  split_ifs with h
  · simp only [SymbolOffset.position, symbolsPerSlot] at h ⊢
    omega
  · rfl

theorem symbol_carrySymbol_lt {symbol : Nat} (h : symbol < 2 * symbolsPerSlot) (slots : Int) :
    (carrySymbol symbol slots).symbol < symbolsPerSlot := by
  unfold carrySymbol
  split_ifs with hge
  · simp only
    omega
  · simpa using hge

/-- The symbol length is rounded down, so that a slot ends within its fifteenth symbol. -/
theorem symbolAt_le {mu : Numerology} {nanos : Nat} (h : nanos ≤ mu.slotMicros * 1000)
    (rounding : Rounding) : symbolAt mu nanos rounding ≤ symbolsPerSlot + 1 := by
  have hdiv : nanos / mu.symbolNanos ≤ symbolsPerSlot :=
    (Nat.div_le_div_right h).trans (by cases mu <;> decide)
  simp only [symbolAt]
  split_ifs <;> omega

theorem symbol_beforeAir_lt (mu : Numerology) (micros : Nat) (rounding : Rounding) :
    (beforeAir mu micros rounding).symbol < symbolsPerSlot := by
  refine symbol_carrySymbol_lt (Nat.lt_of_le_of_lt (symbolAt_le ?_ rounding) (by decide)) _
  exact Nat.mul_le_mul_right _ (Nat.sub_le _ _)

theorem symbol_afterAir_lt (mu : Numerology) (micros : Nat) (rounding : Rounding) :
    (afterAir mu micros rounding).symbol < symbolsPerSlot := by
  refine symbol_carrySymbol_lt (Nat.lt_of_le_of_lt (symbolAt_le ?_ rounding) (by decide)) _
  exact Nat.mul_le_mul_right _ (Nat.mod_lt _ (by cases mu <;> decide)).le

theorem symbol_later_lt {o : SymbolOffset} (ho : o.symbol < symbolsPerSlot) {symbols : Nat}
    (h : symbols ≤ symbolsPerSlot) : (o.later symbols).symbol < symbolsPerSlot :=
  symbol_carrySymbol_lt (by omega) _

theorem symbol_afterAir_later_lt (mu : Numerology) (micros : Nat) {symbols : Nat}
    (h : symbols ≤ symbolsPerSlot) :
    ((afterAir mu micros .up).later symbols).symbol < symbolsPerSlot :=
  symbol_later_lt (symbol_afterAir_lt _ _ _) h

theorem symbol_lt_of_mem_spreadBefore {mu : Numerology} {longest shortest : Nat} {o : SymbolOffset}
    (h : o ∈ spreadBefore mu longest shortest) : o.symbol < symbolsPerSlot := by
  obtain ⟨step, -, rfl⟩ := List.mem_map.mp h
  exact SymbolOffset.symbol_ofPosition_lt _

/-- All offsets of a table. -/
def DeadlineTable.offsets (table : DeadlineTable) : List SymbolOffset :=
  [table.dlControl, table.ulControl, table.ulHalf, table.ulFull, table.radioUlSend,
    table.radioDlArrival] ++ table.dlControlSpread

/-- Every deadline that follows from a budget is on a symbol of a slot. -/
theorem symbol_lt_of_mem_offsets (budget : DelayBudget) (mu : Numerology) {o : SymbolOffset}
    (h : o ∈ (DeadlineTable.derive budget mu).offsets) : o.symbol < symbolsPerSlot := by
  simp only [DeadlineTable.offsets, List.mem_append, List.mem_cons, List.not_mem_nil,
    or_false] at h
  rcases h with (rfl | rfl | rfl | rfl | rfl | rfl) | hspread
  · exact symbol_beforeAir_lt _ _ _
  · exact symbol_beforeAir_lt _ _ _
  · exact symbol_afterAir_later_lt _ _ (by decide)
  · exact symbol_afterAir_later_lt _ _ le_rfl
  · exact symbol_afterAir_lt _ _ _
  · exact symbol_afterAir_later_lt _ _ le_rfl
  · exact symbol_lt_of_mem_spreadBefore hspread

/-- The symbols between two delays follow one another from that of the longer one on. -/
theorem spreadBefore_eq (mu : Numerology) (longest shortest : Nat) :
    spreadBefore mu longest shortest =
      (List.range (spreadBefore mu longest shortest).length).map fun (step : Nat) =>
        .ofPosition ((beforeAir mu longest .up).position + step) := by
  rw [spreadBefore]
  simp only [List.length_map, List.length_range]

theorem length_spreadBefore_pos (mu : Numerology) (longest shortest : Nat) :
    0 < (spreadBefore mu longest shortest).length := by
  rw [spreadBefore, List.length_map, List.length_range]
  exact Nat.succ_pos _

/-! ## Leads -/

namespace DelayBudget

variable {budget : DelayBudget}

/-- Both leads of downlink control messages fit the bits of a delay. -/
structure Fits (budget : DelayBudget) : Prop where
  longest_lt : budget.t1aMaxControlDl.toNat + budget.advanceDl.toNat < 2 ^ 32
  shortest_lt : budget.t1aMinControlDl.toNat + budget.advanceDl.toNat < 2 ^ 32

end DelayBudget

/-! ## Deadlines of one side -/

namespace Scheduler

/-- The kind of work that goes with a deadline. -/
def workFor : CallbackKind → JobKind
  | .dlControl => .dlControl
  | .ulControl => .ulControl
  | .ulHalfArrived | .ulArrived | .radioUlSend | .radioDlArrived => .deadline
  | .user _ => .application

/-- What every deadline of a table satisfies. -/
structure Deadline.Sound (d : Deadline) : Prop where
  symbol_lt : d.offset.symbol < symbolsPerSlot
  job_eq : d.job = workFor d.kind
  kind_ne : ∀ moment, d.kind ≠ .user moment

theorem mem_ifHandled {handled : Bool} {ds : List Deadline} {d : Deadline} :
    d ∈ ifHandled handled ds ↔ handled = true ∧ d ∈ ds := by
  cases handled <;> simp [ifHandled]

theorem sound_dlDeadlines (budget : DelayBudget) (mu : Numerology) (mode : DlMode) {d : Deadline}
    (h : d ∈ dlDeadlines (.derive budget mu) mode) : d.Sound := by
  cases mode with
  | burst =>
    obtain rfl := List.mem_singleton.mp h
    exact ⟨symbol_beforeAir_lt _ _ _, rfl, by simp⟩
  | spread =>
    obtain ⟨⟨offset, part⟩, hmem, rfl⟩ := List.mem_map.mp h
    exact ⟨symbol_lt_of_mem_spreadBefore (List.fst_mem_of_mem_zipIdx hmem), rfl, by simp⟩

theorem sound_deadlines (budget : DelayBudget) (mu : Numerology) (mode : DlMode) (role : Role)
    (handled : Handled) {d : Deadline}
    (h : d ∈ deadlines (.derive budget mu) mode role handled) : d.Sound := by
  cases role with
  | distributedUnit =>
    simp only [deadlines, List.mem_append, mem_ifHandled, List.mem_cons, List.not_mem_nil,
      or_false] at h
    rcases h with ⟨-, h⟩ | ⟨-, rfl⟩ | ⟨-, rfl | rfl⟩
    · exact sound_dlDeadlines budget mu mode h
    · exact ⟨symbol_beforeAir_lt _ _ _, rfl, by simp⟩
    · exact ⟨symbol_afterAir_later_lt _ _ le_rfl, rfl, by simp⟩
    · exact ⟨symbol_afterAir_later_lt _ _ (by decide), rfl, by simp⟩
  | radioUnit =>
    simp only [deadlines, List.mem_append, mem_ifHandled, List.mem_cons, List.not_mem_nil,
      or_false] at h
    rcases h with ⟨-, rfl⟩ | ⟨-, rfl⟩
    · exact ⟨symbol_afterAir_lt _ _ _, rfl, by simp⟩
    · exact ⟨symbol_afterAir_later_lt _ _ le_rfl, rfl, by simp⟩

/-! ## Registered deadlines -/

/-- The callback of a deadline under a number. -/
def Deadline.callback (d : Deadline) (id : ℕ) : Callback :=
  { id, kind := d.kind, job := d.job, slots := d.offset.slots, part := d.part, parts := d.parts }

/-- Each symbol has the callbacks of its deadlines, in order and numbered on. -/
theorem bucket_withDeadlines (s : Scheduler) {ds : List Deadline}
    (h : ∀ d ∈ ds, d.offset.symbol < symbolsPerSlot) (symbol : ℕ) :
    (s.withDeadlines ds).bucket symbol = s.bucket symbol ++
      ((ds.zipIdx s.nextId).filter (·.1.offset.symbol = symbol)).map fun x => x.1.callback x.2 := by
  induction ds generalizing s with
  | nil => simp [withDeadlines]
  | cons d ds ih =>
    obtain ⟨hd, hds⟩ := List.forall_mem_cons.mp h
    have hstep : s.withDeadlines (d :: ds) =
        (s.withCallback d.offset d.kind d.job d.part d.parts).withDeadlines ds := rfl
    have hnext : (s.withCallback d.offset d.kind d.job d.part d.parts).nextId = s.nextId + 1 := rfl
    rw [hstep, ih _ hds, bucket_withCallback s hd, hnext, List.zipIdx_cons, List.filter_cons]
    by_cases heq : d.offset.symbol = symbol
    · simp [heq, Deadline.callback]
    · simp [heq]

@[simp] lemma table_withDeadlines (s : Scheduler) (ds : List Deadline) :
    (s.withDeadlines ds).table = s.table := by
  induction ds generalizing s with
  | nil => rfl
  | cons d ds ih => exact ih (s.withCallback d.offset d.kind d.job d.part d.parts)

@[simp] lemma budget_withDeadlines (s : Scheduler) (ds : List Deadline) :
    (s.withDeadlines ds).budget = s.budget := by
  induction ds generalizing s with
  | nil => rfl
  | cons d ds ih => exact ih (s.withCallback d.offset d.kind d.job d.part d.parts)

@[simp] lemma nextId_withDeadlines (s : Scheduler) (ds : List Deadline) :
    (s.withDeadlines ds).nextId = s.nextId + ds.length := by
  induction ds generalizing s with
  | nil => rfl
  | cons d ds ih =>
    have hrest := ih (s.withCallback d.offset d.kind d.job d.part d.parts)
    have hnext : (s.withCallback d.offset d.kind d.job d.part d.parts).nextId = s.nextId + 1 := rfl
    rw [hnext, Nat.add_assoc, Nat.add_comm 1] at hrest
    exact hrest

@[simp] lemma counts_withDeadlines (s : Scheduler) (ds : List Deadline) :
    (s.withDeadlines ds).counts = s.counts := by
  induction ds generalizing s with
  | nil => rfl
  | cons d ds ih => exact ih (s.withCallback d.offset d.kind d.job d.part d.parts)

end Scheduler

end OpenFronthaul
