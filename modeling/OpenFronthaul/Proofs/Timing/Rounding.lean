import OpenFronthaul.Proofs.Timing.Registry
import Mathlib.Algebra.Order.Floor.Div
import Mathlib.Tactic

/-!
# Rounded delays

A delay is given in microseconds and rounded to symbols, whose length is itself rounded down to
whole nanoseconds.  Within a slot this does not move a moment to another symbol (`symbolsIn_down`).
But the start of a slot is the only moment that is the start of a symbol then, so that rounding up
adds a symbol to every other one (`symbolsIn_up`).

An offset before or after the air counts the whole slots of a delay exactly and rounds what is left.
So it never comes before the moment when it is rounded up and never behind it when it is rounded
down, and is less than a symbol off, or a whole one (`deadlines_in_window`).  It is a whole symbol
late where the delay is a whole number of symbols but not of slots.  The moments of applications are
rounded without whole slots, and come ever later as the delay grows (`roundUp_wholeSymbols`).
-/

namespace OpenFronthaul

variable {mu : Numerology} {micros : ℕ}

/-! ## Moments of a slot -/

/-- The length of a slot in microseconds, and of its symbols in whole nanoseconds. -/
lemma lengths (mu : Numerology) :
    (mu.slotMicros = 1000 ∧ mu.symbolNanos = 71428) ∨
    (mu.slotMicros = 500 ∧ mu.symbolNanos = 35714) ∨
    (mu.slotMicros = 250 ∧ mu.symbolNanos = 17857) ∨
    (mu.slotMicros = 125 ∧ mu.symbolNanos = 8928) := by
  cases mu <;> decide

lemma slotMicros_pos (mu : Numerology) : 0 < mu.slotMicros := by
  cases mu <;> decide

lemma symbolNanos_pos (mu : Numerology) : 0 < mu.symbolNanos := by
  cases mu <;> decide

lemma symbolsIn_down_eq_div (mu : Numerology) (micros : ℕ) :
    symbolsIn mu micros .down = micros * 1000 / mu.symbolNanos := by
  simp [symbolsIn, symbolAt]

/-- Within a slot the symbol that a moment lies in is the exact one. -/
theorem symbolsIn_down (h : micros ≤ mu.slotMicros) :
    symbolsIn mu micros .down = symbolsPerSlot * micros / mu.slotMicros := by
  have hle := Nat.div_mul_le_self (symbolsPerSlot * micros) mu.slotMicros
  have hlt := Nat.lt_div_mul_add (a := symbolsPerSlot * micros) (slotMicros_pos mu)
  rw [symbolsIn_down_eq_div]
  -- what a symbol of whole nanoseconds lacks does not add up to one within a slot
  generalize symbolsPerSlot * micros / mu.slotMicros = symbol at *
  rw [symbolsPerSlot] at hle hlt
  rcases lengths mu with ⟨hslot, hsymbol⟩ | ⟨hslot, hsymbol⟩ | ⟨hslot, hsymbol⟩ |
    ⟨hslot, hsymbol⟩ <;>
    rw [hslot] at h hle hlt <;>
    rw [hsymbol, Nat.div_eq_iff (by decide)] <;>
    omega

/-- Within a slot no moment but its start is the start of a symbol. -/
theorem symbolsIn_up (h : micros ≤ mu.slotMicros) :
    symbolsIn mu micros .up =
      if micros = 0 then 0 else symbolsPerSlot * micros / mu.slotMicros + 1 := by
  have hstart : micros * 1000 % mu.symbolNanos = 0 ↔ micros = 0 := by
    rcases lengths mu with ⟨hslot, hsymbol⟩ | ⟨hslot, hsymbol⟩ | ⟨hslot, hsymbol⟩ |
      ⟨hslot, hsymbol⟩ <;>
      rw [hslot] at h <;>
      rw [hsymbol] <;>
      omega
  by_cases hzero : micros = 0
  · subst hzero
    simp [symbolsIn, symbolAt]
  · rw [if_neg hzero, ← symbolsIn_down h, symbolsIn_down_eq_div]
    exact if_pos ⟨rfl, mt hstart.mp hzero⟩

/-- From the symbol that a moment lies in it is less than one symbol to the moment. -/
lemma symbol_mem (mu : Numerology) (micros : ℕ) :
    (mu.slotMicros * (symbolsPerSlot * micros / mu.slotMicros : ℕ) - symbolsPerSlot * micros : ℤ) ∈
      Set.Ioc (-mu.slotMicros : ℤ) 0 := by
  have hle := Nat.div_mul_le_self (symbolsPerSlot * micros) mu.slotMicros
  have hlt := Nat.lt_div_mul_add (a := symbolsPerSlot * micros) (slotMicros_pos mu)
  push_cast [Set.mem_Ioc, ← Int.ofNat_le, ← Int.ofNat_lt] at hle hlt ⊢
  constructor <;> linarith

/-- From a moment of a slot it is at most one symbol to the one that it is rounded up to. -/
theorem symbolsIn_up_mem (h : micros ≤ mu.slotMicros) :
    (mu.slotMicros * symbolsIn mu micros .up - symbolsPerSlot * micros : ℤ) ∈
      Set.Icc 0 (mu.slotMicros : ℤ) := by
  obtain ⟨hlt, hle⟩ := Set.mem_Ioc.mp (symbol_mem mu micros)
  rw [symbolsIn_up h]
  split_ifs with hzero
  · subst hzero
    simp
  · rw [Set.mem_Icc, Nat.cast_succ]
    constructor <;> linarith

/-- From the symbol that a moment of a slot is rounded down to it is less than one symbol to the
moment. -/
theorem symbolsIn_down_mem (h : micros ≤ mu.slotMicros) :
    (mu.slotMicros * symbolsIn mu micros .down - symbolsPerSlot * micros : ℤ) ∈
      Set.Ioc (-mu.slotMicros : ℤ) 0 := by
  rw [symbolsIn_down h]
  exact symbol_mem mu micros

/-! ## Offsets -/

/-- How far an offset lies behind a moment, which is given in microseconds from the start of the
served slot.  The unit is the fourteenth of a microsecond: a symbol lasts as many of these as a slot
lasts microseconds. -/
def SymbolOffset.lag (o : SymbolOffset) (mu : Numerology) (micros : ℤ) : ℤ :=
  mu.slotMicros * o.position - symbolsPerSlot * micros

/-- The microseconds from the start of a slot to a moment in it, which lies a delay before the start
of another slot. -/
def restBefore (mu : Numerology) (micros : ℕ) : ℕ :=
  mu.slotMicros - (micros - (micros - 1) / mu.slotMicros * mu.slotMicros)

lemma restBefore_le (mu : Numerology) (micros : ℕ) : restBefore mu micros ≤ mu.slotMicros :=
  Nat.sub_le _ _

/-- A delay and what is left of its first slot are whole slots. -/
lemma restBefore_add (mu : Numerology) (micros : ℕ) :
    restBefore mu micros + micros = mu.slotMicros * ((micros - 1) / mu.slotMicros + 1) := by
  have hle := Nat.div_mul_le_self (micros - 1) mu.slotMicros
  have hlt := Nat.lt_div_mul_add (a := micros - 1) (slotMicros_pos mu)
  rw [restBefore, Nat.mul_add, Nat.mul_one, Nat.mul_comm mu.slotMicros]
  omega

/-- The moment before the air is the start of a slot where the delay consists of whole slots. -/
lemma restBefore_eq_zero_iff : restBefore mu micros = 0 ↔ 0 < micros ∧ mu.slotMicros ∣ micros := by
  have hadd := restBefore_add mu micros
  constructor
  · intro hzero
    rw [hzero, Nat.zero_add] at hadd
    refine ⟨?_, _, hadd⟩
    rw [hadd]
    exact Nat.mul_pos (slotMicros_pos mu) (Nat.succ_pos _)
  · rintro ⟨hpos, hdvd⟩
    have hlt : restBefore mu micros < mu.slotMicros := by
      have hle := Nat.div_mul_le_self (micros - 1) mu.slotMicros
      have hslot := slotMicros_pos mu
      rw [restBefore]
      omega
    exact Nat.eq_zero_of_dvd_of_lt ((Nat.dvd_add_left hdvd).mp ⟨_, hadd⟩) hlt

lemma lag_beforeAir (mu : Numerology) (micros : ℕ) (rounding : Rounding) :
    (beforeAir mu micros rounding).lag mu (-micros) =
      mu.slotMicros * symbolsIn mu (restBefore mu micros) rounding -
        symbolsPerSlot * restBefore mu micros := by
  have hposition : (beforeAir mu micros rounding).position =
      symbolsIn mu (restBefore mu micros) rounding -
        symbolsPerSlot * (((micros - 1) / mu.slotMicros : ℕ) + 1) :=
    position_carrySymbol _ _
  have hadd := congrArg (Nat.cast (R := ℤ)) (restBefore_add mu micros)
  push_cast at hadd
  rw [SymbolOffset.lag, hposition]
  push_cast
  linear_combination (symbolsPerSlot : ℤ) * hadd

lemma lag_afterAir (mu : Numerology) (micros : ℕ) (rounding : Rounding) :
    (afterAir mu micros rounding).lag mu micros =
      mu.slotMicros * symbolsIn mu (micros % mu.slotMicros) rounding -
        symbolsPerSlot * (micros % mu.slotMicros : ℕ) := by
  have hposition : (afterAir mu micros rounding).position =
      symbolsIn mu (micros % mu.slotMicros) rounding -
        symbolsPerSlot * -((micros / mu.slotMicros : ℕ) : ℤ) :=
    position_carrySymbol _ _
  have hadd := congrArg (Nat.cast (R := ℤ)) (Nat.mod_add_div micros mu.slotMicros)
  push_cast at hadd
  rw [SymbolOffset.lag, hposition]
  push_cast
  linear_combination (symbolsPerSlot : ℤ) * hadd

lemma position_later (o : SymbolOffset) (symbols : ℕ) :
    (o.later symbols).position = o.position + symbols := by
  rw [SymbolOffset.later, position_carrySymbol, SymbolOffset.position]
  push_cast
  ring

/-- Deadlines fire on symbols, in time and not a symbol off: behind their moment by at most a
symbol when they are rounded up, and before it by less than one when they are rounded down.  Those
for the end and the middle of a slot lie as many symbols behind those for its start. -/
theorem deadlines_in_window (mu : Numerology) :
    (∀ micros : ℕ,
      (beforeAir mu micros .up).lag mu (-micros) ∈ Set.Icc 0 (mu.slotMicros : ℤ) ∧
      (beforeAir mu micros .down).lag mu (-micros) ∈ Set.Ioc (-mu.slotMicros : ℤ) 0 ∧
      (afterAir mu micros .up).lag mu micros ∈ Set.Icc 0 (mu.slotMicros : ℤ) ∧
      (afterAir mu micros .down).lag mu micros ∈ Set.Ioc (-mu.slotMicros : ℤ) 0) ∧
    ∀ budget : DelayBudget,
      (∀ o ∈ (DeadlineTable.derive budget mu).offsets, o.symbol < symbolsPerSlot) ∧
      (DeadlineTable.derive budget mu).ulFull.position =
        (afterAir mu budget.ta4Max.toNat .up).position + 14 ∧
      (DeadlineTable.derive budget mu).ulHalf.position =
        (afterAir mu budget.ta4Max.toNat .up).position + 7 ∧
      (DeadlineTable.derive budget mu).radioDlArrival.position =
        (afterAir mu budget.t2aMaxUser.toNat .up).position + 14 := by
  constructor
  · intro micros
    have hbefore := restBefore_le mu micros
    have hafter := (Nat.mod_lt micros (slotMicros_pos mu)).le
    rw [lag_beforeAir, lag_beforeAir, lag_afterAir, lag_afterAir]
    exact ⟨symbolsIn_up_mem hbefore, symbolsIn_down_mem hbefore, symbolsIn_up_mem hafter,
      symbolsIn_down_mem hafter⟩
  · intro budget
    exact ⟨fun o ho => symbol_lt_of_mem_offsets budget mu ho, position_later _ _,
      position_later _ _, position_later _ _⟩

/-! ## Whole symbols -/

/-- A moment of a slot that is the start of one of its symbols is rounded up to the next symbol,
unless it is the start of the slot. -/
lemma symbolsIn_up_of_dvd (h : micros ≤ mu.slotMicros)
    (hdvd : mu.slotMicros ∣ symbolsPerSlot * micros) :
    (mu.slotMicros * symbolsIn mu micros .up - symbolsPerSlot * micros : ℤ) =
      mu.slotMicros * if micros = 0 then 0 else 1 := by
  have hdiv := congrArg (Nat.cast (R := ℤ)) (Nat.mul_div_cancel' hdvd)
  push_cast at hdiv
  rw [symbolsIn_up h]
  split_ifs with hzero
  · simp [hzero]
  · push_cast
    linear_combination hdiv

/-- An offset that lies whole symbols behind a moment, which itself is whole symbols from the start
of the served slot, has their sum as its position. -/
lemma position_eq_of_lag {o : SymbolOffset} {moment symbols late : ℤ}
    (hlag : o.lag mu moment = mu.slotMicros * late)
    (hmoment : symbolsPerSlot * moment = mu.slotMicros * symbols) :
    o.position = symbols + late := by
  have hslot : (mu.slotMicros : ℤ) ≠ 0 := by exact_mod_cast (slotMicros_pos mu).ne'
  refine mul_left_cancel₀ hslot ?_
  rw [SymbolOffset.lag] at hlag
  linear_combination hlag + hmoment

/-- The symbols by which a delay of a number of symbols becomes longer when it is counted in symbols
of whole nanoseconds. -/
def drift (mu : Numerology) (micros symbols : ℕ) : ℕ :=
  (micros * 1000 - symbols * mu.symbolNanos) ⌈/⌉ mu.symbolNanos

lemma symbolsIn_up_eq_ceilDiv (mu : Numerology) (micros : ℕ) :
    symbolsIn mu micros .up = micros * 1000 ⌈/⌉ mu.symbolNanos := by
  have hpos := symbolNanos_pos mu
  have hadd := Nat.mod_add_div (micros * 1000) mu.symbolNanos
  have hmod := Nat.mod_lt (micros * 1000) hpos
  rw [Nat.ceilDiv_eq_add_pred_div]
  simp only [symbolsIn, symbolAt, true_and]
  split_ifs with hpartial
  · symm
    rw [Nat.div_eq_iff hpos, Nat.add_mul, Nat.mul_comm (_ / _)]
    omega
  · symm
    rw [Nat.div_eq_iff hpos, Nat.mul_comm (_ / _)]
    omega

section WholeSymbols

variable {symbols : ℕ} (hwhole : mu.slotMicros * symbols = symbolsPerSlot * micros)
include hwhole

lemma position_beforeAir_of_whole : (beforeAir mu micros .up).position =
    -symbols + if 0 < micros ∧ mu.slotMicros ∣ micros then 0 else 1 := by
  have hdvd : mu.slotMicros ∣ symbolsPerSlot * restBefore mu micros := by
    have hsum : mu.slotMicros ∣
        symbolsPerSlot * restBefore mu micros + symbolsPerSlot * micros := by
      rw [← Nat.mul_add, restBefore_add]
      exact dvd_mul_of_dvd_right (dvd_mul_right _ _) _
    exact (Nat.dvd_add_left ⟨_, hwhole.symm⟩).mp hsum
  have hlag := lag_beforeAir mu micros .up
  rw [symbolsIn_up_of_dvd (restBefore_le mu micros) hdvd] at hlag
  simp only [restBefore_eq_zero_iff] at hlag
  refine position_eq_of_lag hlag ?_
  have hcast := congrArg (Nat.cast (R := ℤ)) hwhole
  push_cast at hcast
  linear_combination hcast

lemma position_afterAir_of_whole : (afterAir mu micros .up).position =
    symbols + if mu.slotMicros ∣ micros then 0 else 1 := by
  have hdvd : mu.slotMicros ∣ symbolsPerSlot * (micros % mu.slotMicros) := by
    have hsum : mu.slotMicros ∣ symbolsPerSlot * (micros % mu.slotMicros) +
        symbolsPerSlot * (mu.slotMicros * (micros / mu.slotMicros)) := by
      rw [← Nat.mul_add, Nat.mod_add_div]
      exact ⟨_, hwhole.symm⟩
    exact (Nat.dvd_add_left (dvd_mul_of_dvd_right (dvd_mul_right _ _) _)).mp hsum
  have hlag := lag_afterAir mu micros .up
  rw [symbolsIn_up_of_dvd (Nat.mod_lt _ (slotMicros_pos mu)).le hdvd] at hlag
  simp only [← Nat.dvd_iff_mod_eq_zero] at hlag
  refine position_eq_of_lag hlag ?_
  have hcast := congrArg (Nat.cast (R := ℤ)) hwhole
  push_cast at hcast
  linear_combination -hcast

/-- A symbol of whole nanoseconds is too short, so that each delay has more of them. -/
lemma symbols_mul_le : symbols * mu.symbolNanos ≤ micros * 1000 ∧
    (symbols * mu.symbolNanos = micros * 1000 ↔ micros = 0) := by
  rw [symbolsPerSlot] at hwhole
  rcases lengths mu with ⟨hslot, hsymbol⟩ | ⟨hslot, hsymbol⟩ | ⟨hslot, hsymbol⟩ |
    ⟨hslot, hsymbol⟩ <;>
    rw [hslot] at hwhole <;>
    rw [hsymbol] <;>
    omega

lemma symbolsIn_up_of_whole :
    symbolsIn mu micros .up = symbols + drift mu micros symbols := by
  have hpos := symbolNanos_pos mu
  have hsplit := Nat.add_sub_of_le (symbols_mul_le hwhole).1
  rw [symbolsIn_up_eq_ceilDiv, drift, ← hsplit, Nat.add_sub_cancel_left,
    Nat.ceilDiv_eq_add_pred_div, Nat.ceilDiv_eq_add_pred_div, Nat.add_assoc,
    Nat.add_sub_assoc (Nat.le_add_left_of_le hpos), Nat.mul_comm, Nat.mul_add_div hpos]

lemma drift_eq_zero_iff : drift mu micros symbols = 0 ↔ micros = 0 := by
  have hpos := symbolNanos_pos mu
  obtain ⟨hle, hiff⟩ := symbols_mul_le hwhole
  rw [← hiff, ← Nat.le_zero, drift, ceilDiv_le_iff_le_mul hpos]
  omega

end WholeSymbols

/-- What rounding up makes of a delay that is a whole number of symbols.  An offset before or after
the air is one symbol late, unless the delay is one of whole slots: so the deadline for the arrival
of uplink data is.  The callback of an application for the end of that arrival is late by the drift
of the delay, which only no delay is without. -/
theorem roundUp_wholeSymbols {symbols : ℕ}
    (hwhole : mu.slotMicros * symbols = symbolsPerSlot * micros) :
    (beforeAir mu micros .up).position =
      -symbols + (if 0 < micros ∧ mu.slotMicros ∣ micros then 0 else 1) ∧
    (afterAir mu micros .up).position =
      symbols + (if mu.slotMicros ∣ micros then 0 else 1) ∧
    (drift mu micros symbols = 0 ↔ micros = 0) ∧
    ∀ (s t : Scheduler) (symbol onAir : ℕ), s.table = .derive s.budget mu →
      s.budget.ta4Max.toNat = micros →
      (Scheduler.Step.register .receiveWindowEnd symbol).run s = (.ok onAir, t) →
      s.table.ulFull.position =
        symbolsPerSlot + symbols + (if mu.slotMicros ∣ micros then 0 else 1) ∧
      ∃ entry ∈ t.bucket onAir, entry.id = s.nextId ∧ entry.kind = .user .receiveWindowEnd ∧
        (SymbolOffset.mk onAir entry.slots).position =
          symbol + symbols + drift mu micros symbols := by
  refine ⟨position_beforeAir_of_whole hwhole, position_afterAir_of_whole hwhole,
    drift_eq_zero_iff hwhole, ?_⟩
  intro s t symbol onAir htable hmicros hregister
  constructor
  · have hfull : s.table.ulFull = (afterAir mu micros .up).later symbolsPerSlot := by
      rw [htable, ← hmicros]
      rfl
    rw [hfull, position_later, position_afterAir_of_whole hwhole]
    ring
  · obtain ⟨entry, hentry, hid, hkind, hposition⟩ := Scheduler.Step.fires_of_register hregister
    have hdistance : s.momentDistance .receiveWindowEnd = symbolsIn mu micros .up := by
      rw [Scheduler.momentDistance, htable, hmicros]
      rfl
    refine ⟨entry, hentry, hid, hkind, ?_⟩
    rw [hposition, hdistance, symbolsIn_up_of_whole hwhole]
    push_cast
    ring

namespace LateArrival

/-- A scheduler for uplink data that arrives a slot after its symbol. -/
def scheduler : Scheduler :=
  .create .khz30 { ta4Max := 500 }

/-- The scheduler with a callback for the end of the arrival of the first symbol. -/
def registered : Scheduler :=
  ((Scheduler.Step.register .receiveWindowEnd 0).run scheduler).2

/-- For a slot the deadlines are exact, but the callback comes one symbol late. -/
theorem roundUp_wholeSymbols_slot :
    Numerology.slotMicros .khz30 * 14 = symbolsPerSlot * 500 ∧
      (beforeAir .khz30 500 .up).position = -14 ∧ (afterAir .khz30 500 .up).position = 14 ∧
      scheduler.table.ulFull.position = 28 ∧
      ∃ entry ∈ registered.bucket 1, (SymbolOffset.mk 1 entry.slots).position = 15 := by
  obtain ⟨hbefore, hafter, -, hregister⟩ :=
    roundUp_wholeSymbols (show Numerology.slotMicros .khz30 * 14 = symbolsPerSlot * 500 by decide)
  have hrun : (Scheduler.Step.register .receiveWindowEnd 0).run scheduler =
      (.ok 1, registered) := rfl
  obtain ⟨hfull, entry, hentry, -, -, hposition⟩ := hregister scheduler registered 0 1 rfl rfl hrun
  have hdrift : drift .khz30 500 14 = 1 := by decide
  rw [hdrift] at hposition
  exact ⟨by decide, hbefore, hafter, hfull, entry, hentry, hposition⟩

/-- Half a slot is seven symbols, but is rounded up to the eighth one; and the callback for the end
of the arrival of a symbol comes one symbol behind the deadline of the same delay. -/
theorem halfSlot_rounded_up :
    Numerology.slotMicros .khz30 * 7 = symbolsPerSlot * 250 ∧
      (beforeAir .khz30 250 .up).position = -6 ∧ (afterAir .khz30 250 .up).position = 8 ∧
      Numerology.slotMicros .khz30 * 14 = symbolsPerSlot * 500 ∧
      (Scheduler.Step.register .receiveWindowEnd 0).run scheduler = (.ok 1, registered) ∧
      registered.bucket 0 = [] ∧
      (registered.bucket 1).map (fun entry => (SymbolOffset.mk 1 entry.slots).position) = [15] ∧
      scheduler.table.ulFull.position = 14 + 14 := by
  refine ⟨by decide, by decide, by decide, by decide, rfl, by decide, by decide, by decide⟩

end LateArrival

end OpenFronthaul
