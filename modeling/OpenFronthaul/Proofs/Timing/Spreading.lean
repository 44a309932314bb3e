import OpenFronthaul.Proofs.Timing.Rounding
import Mathlib.Tactic

/-!
# Work spread over symbols

The work on a slot can be split into parts, one on each symbol from the longest delay before the
slot to the shortest one.  The longest delay is rounded up, which is where all of the work would be
done at once, and the shortest one is rounded down.  So no part comes too early and none too late,
and the parts are on the symbols between the two ends, over the borders of slots
(`spreadBefore_spansWindow`).  Where the window has no room for two symbols, the one part may lie
outside it.
-/

namespace OpenFronthaul

variable {mu : Numerology} {longest shortest : ℕ} {o : SymbolOffset}

/-! ## The ends of a window -/

/-- An offset that is rounded up does not come before its moment. -/
lemma le_position_beforeAir_up (mu : Numerology) (micros : ℕ) :
    (-(symbolsPerSlot * micros) : ℤ) ≤ mu.slotMicros * (beforeAir mu micros .up).position := by
  have hlag := (Set.mem_Icc.mp (symbolsIn_up_mem (restBefore_le mu micros))).1
  rw [← lag_beforeAir, SymbolOffset.lag] at hlag
  linarith

/-- An offset that is rounded down does not come behind its moment. -/
lemma position_beforeAir_down_le (mu : Numerology) (micros : ℕ) :
    mu.slotMicros * (beforeAir mu micros .down).position ≤ (-(symbolsPerSlot * micros) : ℤ) := by
  have hlag := (Set.mem_Ioc.mp (symbolsIn_down_mem (restBefore_le mu micros))).2
  rw [← lag_beforeAir, SymbolOffset.lag] at hlag
  linarith

/-- When the shortest delay is not the shorter one, its symbol is not the later one. -/
lemma position_beforeAir_down_le_up (h : longest ≤ shortest) :
    (beforeAir mu shortest .down).position ≤ (beforeAir mu longest .up).position := by
  have hslot : (0 : ℤ) < mu.slotMicros := by exact_mod_cast slotMicros_pos mu
  refine le_of_mul_le_mul_left ?_ hslot
  calc mu.slotMicros * (beforeAir mu shortest .down).position
      ≤ (-(symbolsPerSlot * shortest) : ℤ) := position_beforeAir_down_le mu shortest
    _ ≤ -(symbolsPerSlot * longest) := by gcongr
    _ ≤ mu.slotMicros * (beforeAir mu longest .up).position := le_position_beforeAir_up mu longest

/-! ## The symbols between them -/

lemma length_spreadBefore (mu : Numerology) (longest shortest : ℕ) :
    (spreadBefore mu longest shortest).length =
      ((beforeAir mu shortest .down).position - (beforeAir mu longest .up).position).toNat + 1 := by
  rw [spreadBefore, List.length_map, List.length_range]

lemma positions_spreadBefore (mu : Numerology) (longest shortest : ℕ) :
    (spreadBefore mu longest shortest).map SymbolOffset.position =
      (List.range (spreadBefore mu longest shortest).length).map fun (step : ℕ) =>
        (beforeAir mu longest .up).position + step := by
  rw [length_spreadBefore, spreadBefore, List.map_map]
  exact List.map_congr_left fun step _ => SymbolOffset.position_ofPosition _

/-- The first part is where all of the work would be done at once. -/
lemma head?_spreadBefore (mu : Numerology) (longest shortest : ℕ) :
    (spreadBefore mu longest shortest).head? = some (beforeAir mu longest .up) := by
  rw [spreadBefore, List.range_succ_eq_map, List.map_cons, List.head?_cons, Nat.cast_zero, add_zero,
    SymbolOffset.ofPosition_position (symbol_beforeAir_lt mu longest .up)]

/-- There is a second part where a later symbol is left of the window. -/
lemma one_lt_length_spreadBefore_iff : 1 < (spreadBefore mu longest shortest).length ↔
    (beforeAir mu longest .up).position < (beforeAir mu shortest .down).position := by
  rw [length_spreadBefore]
  omega

lemma spreadBefore_eq_singleton_iff : spreadBefore mu longest shortest = [beforeAir mu longest .up] ↔
    (beforeAir mu shortest .down).position ≤ (beforeAir mu longest .up).position := by
  rw [← not_lt, ← one_lt_length_spreadBefore_iff, not_lt]
  constructor
  · intro h
    rw [h, List.length_singleton]
  · intro hle
    obtain ⟨o, ho⟩ := List.length_eq_one_iff.mp
      (hle.antisymm (length_spreadBefore_pos mu longest shortest))
    have hhead := head?_spreadBefore mu longest shortest
    rw [ho, List.head?_singleton, Option.some_inj] at hhead
    rw [ho, hhead]

/-- The positions of the parts lie between those of the two ends. -/
lemma position_mem_of_mem_spreadBefore
    (h : (beforeAir mu longest .up).position ≤ (beforeAir mu shortest .down).position)
    (ho : o ∈ spreadBefore mu longest shortest) :
    o.position ∈ Set.Icc (beforeAir mu longest .up).position
      (beforeAir mu shortest .down).position := by
  obtain ⟨step, hstep, rfl⟩ := List.mem_map.mp ho
  rw [List.mem_range] at hstep
  rw [SymbolOffset.position_ofPosition, Set.mem_Icc]
  omega

lemma getLast?_spreadBefore
    (h : (beforeAir mu longest .up).position ≤ (beforeAir mu shortest .down).position) :
    (spreadBefore mu longest shortest).getLast? = some (beforeAir mu shortest .down) := by
  have hlast : (beforeAir mu longest .up).position + (((beforeAir mu shortest .down).position -
      (beforeAir mu longest .up).position).toNat : ℕ) = (beforeAir mu shortest .down).position := by
    omega
  rw [spreadBefore, List.range_succ, List.map_append, List.map_singleton, List.getLast?_concat,
    hlast, SymbolOffset.ofPosition_position (symbol_beforeAir_lt mu shortest .down)]

/-! ## The window -/

/-- Offsets for the parts of the work on a slot, which is to be done between two delays before it. -/
structure SpansWindow (mu : Numerology) (longest shortest : ℕ) (spread : List SymbolOffset) :
    Prop where
  ne_nil : spread ≠ []
  /-- The parts are on one symbol after the other, from the one that the longest delay is rounded up
  to. -/
  positions_eq : spread.map SymbolOffset.position = (List.range spread.length).map fun (step : ℕ) =>
    (beforeAir mu longest .up).position + step
  symbol_lt : ∀ o ∈ spread, o.symbol < 14
  /-- Several parts are all done in time.  A slot has fourteen symbols, so that both sides are in
  fourteenths of a microsecond. -/
  mem_window : 1 < spread.length → ∀ o ∈ spread,
    (mu.slotMicros * o.position : ℤ) ∈ Set.Icc (-(14 * longest) : ℤ) (-(14 * shortest))
  getLast?_eq : 1 < spread.length → spread.getLast? = some (beforeAir mu shortest .down)
  /-- There is a single part exactly when the window leaves no later symbol. -/
  eq_singleton_iff : spread = [beforeAir mu longest .up] ↔
    (beforeAir mu shortest .down).position ≤ (beforeAir mu longest .up).position
  eq_singleton_of_le : longest ≤ shortest → spread = [beforeAir mu longest .up]

/-- Work that is spread between two delays before a slot is done one part after the other, and in
time when there are several. -/
theorem spreadBefore_spansWindow (mu : Numerology) (longest shortest : ℕ) :
    SpansWindow mu longest shortest (spreadBefore mu longest shortest) where
  ne_nil := List.ne_nil_of_length_pos (length_spreadBefore_pos mu longest shortest)
  positions_eq := positions_spreadBefore mu longest shortest
  symbol_lt _ ho := symbol_lt_of_mem_spreadBefore ho
  mem_window := by
    intro hmany o ho
    have hends := (one_lt_length_spreadBefore_iff.mp hmany).le
    obtain ⟨hfirst, hlast⟩ := Set.mem_Icc.mp (position_mem_of_mem_spreadBefore hends ho)
    have hslot : (0 : ℤ) ≤ mu.slotMicros := Int.natCast_nonneg _
    constructor
    · exact (le_position_beforeAir_up mu longest).trans (mul_le_mul_of_nonneg_left hfirst hslot)
    · exact (mul_le_mul_of_nonneg_left hlast hslot).trans (position_beforeAir_down_le mu shortest)
  getLast?_eq hmany := getLast?_spreadBefore (one_lt_length_spreadBefore_iff.mp hmany).le
  eq_singleton_iff := spreadBefore_eq_singleton_iff
  eq_singleton_of_le h := spreadBefore_eq_singleton_iff.mpr (position_beforeAir_down_le_up h)

/-- Fourteen parts on symbols of two slots, from the twenty-fifth before the served slot to the
twelfth; and a window that leaves room for one part only. -/
theorem spreadBefore_spansWindow_twoSlots :
    (spreadBefore .khz120 224 100).length = 14 ∧
      (spreadBefore .khz120 224 100).getLast? = some ⟨2, 1⟩ ∧
      (∀ o ∈ spreadBefore .khz120 224 100, (125 * o.position : ℤ) ∈ Set.Icc (-3136) (-1400)) ∧
      spreadBefore .khz120 224 300 = [⟨3, 2⟩] := by
  have hlength : (spreadBefore .khz120 224 100).length = 14 := by decide
  have hspans := spreadBefore_spansWindow .khz120 224 100
  exact ⟨hlength, hspans.getLast?_eq (by omega), hspans.mem_window (by omega),
    (spreadBefore_spansWindow .khz120 224 300).eq_singleton_of_le (by decide)⟩

end OpenFronthaul
