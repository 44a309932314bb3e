import OpenFronthaul.Numerology

/-!
# Deadlines in symbols

The delays that both sides of the fronthaul agree on are given in microseconds; callbacks fire on
symbols.  A `SymbolOffset` says on which symbol a callback fires, and how many slots ahead the slot
lies that it serves; its `position` is the distance in symbols from the start of that slot.
`beforeAir` and `afterAir` turn a delay before or after the start of a slot into an offset, and
`spreadBefore` lists all symbols between two delays.  `DeadlineTable.derive` applies them to a whole
`DelayBudget`.
-/

namespace OpenFronthaul

/-- The delays of a fronthaul in microseconds.  Names follow the standard: `T1a` is the lead of the
distributed unit, `T2a` and `Ta3` belong to the radio unit, `Ta4` is the arrival of uplink data. -/
structure DelayBudget where
  /-- Extra lead of downlink control messages over their data. -/
  advanceDl : UInt32 := 25
  t2aMinControlDl : UInt32 := 285
  t2aMaxControlDl : UInt32 := 429
  t2aMinControlUl : UInt32 := 285
  t2aMaxControlUl : UInt32 := 429
  t2aMinUser : UInt32 := 71
  t2aMaxUser : UInt32 := 428
  ta3Min : UInt32 := 20
  ta3Max : UInt32 := 32
  t1aMinControlDl : UInt32 := 258
  t1aMaxControlDl : UInt32 := 429
  t1aMinControlUl : UInt32 := 285
  t1aMaxControlUl : UInt32 := 429
  t1aMinUser : UInt32 := 96
  t1aMaxUser : UInt32 := 196
  ta4Min : UInt32 := 0
  ta4Max : UInt32 := 75
deriving DecidableEq

namespace DelayBudget

/-- The longest lead of downlink control messages over their slot.  Like a delay it has 32 bits: a
sum beyond them wraps around. -/
def longestLead (budget : DelayBudget) : UInt32 :=
  budget.t1aMaxControlDl + budget.advanceDl

/-- The shortest lead of downlink control messages over their slot, of 32 bits as well. -/
def shortestLead (budget : DelayBudget) : UInt32 :=
  budget.t1aMinControlDl + budget.advanceDl

end DelayBudget

/-- Which symbol a moment within a symbol counts for. -/
inductive Rounding where
  /-- The later one; a moment that is the start of a symbol stays on it. -/
  | up
  /-- The earlier one. -/
  | down
deriving DecidableEq

/-- When a callback fires: on a symbol of some slot, for the slot that lies the given number of
slots later. -/
structure SymbolOffset where
  /-- The symbol. -/
  symbol : Nat
  /-- The slots from the slot of the symbol to the slot that is served. -/
  slots : Int
deriving DecidableEq

namespace SymbolOffset

/-- The symbols from the start of the served slot. -/
def position (o : SymbolOffset) : Int :=
  o.symbol - symbolsPerSlot * o.slots

/-- The offset of a position. -/
def ofPosition (position : Int) : SymbolOffset where
  symbol := (position % symbolsPerSlot).toNat
  slots := -(position / symbolsPerSlot)

theorem symbol_ofPosition_lt (p : Int) : (ofPosition p).symbol < symbolsPerSlot := by
  simp only [ofPosition, symbolsPerSlot]
  omega

@[simp] theorem position_ofPosition (p : Int) : (ofPosition p).position = p := by
  simp only [ofPosition, position, symbolsPerSlot]
  omega

end SymbolOffset

/-- The number of the symbol that a moment, given in nanoseconds, counts for. -/
def symbolAt (mu : Numerology) (nanos : Nat) (rounding : Rounding) : Nat :=
  let symbol := nanos / mu.symbolNanos
  if rounding = .up ∧ nanos % mu.symbolNanos ≠ 0 then symbol + 1 else symbol

/-- The whole symbols in a delay. -/
def symbolsIn (mu : Numerology) (micros : Nat) (rounding : Rounding) : Nat :=
  symbolAt mu (micros * 1000) rounding

/-- The offset of a symbol that may be one past the last one of its slot. -/
def carrySymbol (symbol : Nat) (slots : Int) : SymbolOffset :=
  if symbolsPerSlot ≤ symbol then ⟨symbol - symbolsPerSlot, slots - 1⟩ else ⟨symbol, slots⟩

/-- When something is due a delay before the start of a slot. -/
def beforeAir (mu : Numerology) (micros : Nat) (rounding : Rounding) : SymbolOffset :=
  let whole := (micros - 1) / mu.slotMicros
  let rest := micros - whole * mu.slotMicros
  carrySymbol (symbolAt mu ((mu.slotMicros - rest) * 1000) rounding) (whole + 1)

/-- When something is due a delay after the start of a slot. -/
def afterAir (mu : Numerology) (micros : Nat) (rounding : Rounding) : SymbolOffset :=
  carrySymbol (symbolAt mu (micros % mu.slotMicros * 1000) rounding)
    (-(micros / mu.slotMicros : Nat))

/-- One offset for each symbol from the longer to the shorter of two delays before a slot; the
offset of the longer one alone if there is no later symbol. -/
def spreadBefore (mu : Numerology) (longest shortest : Nat) : List SymbolOffset :=
  let first := (beforeAir mu longest .up).position
  let last := (beforeAir mu shortest .down).position
  (List.range ((last - first).toNat + 1)).map fun (step : Nat) => .ofPosition (first + step)

/-- The deadlines of a carrier. -/
structure DeadlineTable where
  /-- Numerology of the carrier. -/
  mu : Numerology
  /-- Building downlink control messages, all at once. -/
  dlControl : SymbolOffset
  /-- Building downlink control messages, in parts. -/
  dlControlSpread : List SymbolOffset
  /-- Building uplink control messages. -/
  ulControl : SymbolOffset
  /-- Arrival of the first half of an uplink slot. -/
  ulHalf : SymbolOffset
  /-- Arrival of a whole uplink slot. -/
  ulFull : SymbolOffset
  /-- Symbols from a downlink symbol to the sending of its data, which lies before. -/
  dlUserLead : Int
  /-- Symbols from an uplink symbol to the arrival of its data. -/
  ulUserDelay : Int
  /-- Sending of uplink data by the radio unit. -/
  radioUlSend : SymbolOffset
  /-- Arrival of downlink data at the radio unit. -/
  radioDlArrival : SymbolOffset
deriving DecidableEq

/-- The offset a number of symbols later, where the number is at most that of a slot. -/
def SymbolOffset.later (o : SymbolOffset) (symbols : Nat) : SymbolOffset :=
  carrySymbol (o.symbol + symbols) o.slots

/-- The deadlines that follow from a delay budget. -/
def DeadlineTable.derive (budget : DelayBudget) (mu : Numerology) : DeadlineTable :=
  let longest := budget.longestLead.toNat
  let shortest := budget.shortestLead.toNat
  let arrival := afterAir mu budget.ta4Max.toNat .up
  { mu
    dlControl := beforeAir mu longest .up
    dlControlSpread := spreadBefore mu longest shortest
    ulControl := beforeAir mu budget.t1aMaxControlUl.toNat .up
    ulHalf := arrival.later (symbolsPerSlot / 2)
    ulFull := arrival.later symbolsPerSlot
    dlUserLead := -symbolsIn mu budget.t1aMaxUser.toNat .up
    ulUserDelay := symbolsIn mu budget.ta4Max.toNat .down + 1
    radioUlSend := afterAir mu budget.ta3Min.toNat .up
    radioDlArrival := (afterAir mu budget.t2aMaxUser.toNat .up).later symbolsPerSlot }

end OpenFronthaul
