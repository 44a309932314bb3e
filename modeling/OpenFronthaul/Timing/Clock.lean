import OpenFronthaul.Section.Store

/-!
# The symbol clock

Time over the air is counted in symbols from the start of the clock.  The count never wraps; the
slot number derived from it wraps after one second.
-/

namespace OpenFronthaul

/-- A moment over the air. -/
structure AirTime where
  /-- Slots since the start of the clock. -/
  absoluteSlot : Nat
  /-- The slot within its second. -/
  slot : Nat
  /-- The symbol within the slot. -/
  symbol : Nat
  /-- The wire name of the slot. -/
  time : SlotTime
deriving DecidableEq

/-- The rotation context of the slot of a moment. -/
def AirTime.context (t : AirTime) : UInt8 :=
  rotationContext t.slot

/-- A count of symbols of one numerology. -/
structure AirClock where
  /-- Numerology of the symbols. -/
  mu : Numerology
  /-- Symbols since the start of the clock. -/
  symbols : Nat := 0
deriving DecidableEq

namespace AirClock

/-- The clock at a symbol of a slot; symbols count modulo fourteen. -/
def startingAt (mu : Numerology) (slot symbol : Nat) : AirClock :=
  ⟨mu, slot * symbolsPerSlot + symbol % symbolsPerSlot⟩

/-- The moment that the clock shows. -/
def now (clock : AirClock) : AirTime :=
  let absoluteSlot := clock.symbols / symbolsPerSlot
  let slot := clock.mu.wrapSlot absoluteSlot
  { absoluteSlot, slot
    symbol := clock.symbols % symbolsPerSlot
    time := clock.mu.slotTime slot }

/-- The clock some symbols later. -/
def advance (clock : AirClock) (symbols : Nat) : AirClock :=
  { clock with symbols := clock.symbols + symbols }

/-- The clock one symbol later. -/
def tick (clock : AirClock) : AirClock :=
  clock.advance 1

end AirClock

end OpenFronthaul
