/-!
# Numerologies and slot counting

A numerology fixes the subcarrier spacing and with it the length of a slot.  A slot has fourteen
symbols, a subframe lasts one millisecond and a frame ten subframes.  Slots are counted modulo one
second (`wrapSlot`); on the wire a slot is named by an eight-bit frame number and its place within
the frame (`slotTime`, `slotIndex`).
-/

namespace OpenFronthaul

-- Powers are those of the core library, whatever else is imported.
attribute [local instance (high)] instPowNat

/-- Symbols in a slot. -/
def symbolsPerSlot : Nat := 14

/-- Subframes in a frame. -/
def subframesPerFrame : Nat := 10

/-- The place of a slot as it is named on the wire. -/
structure SlotTime where
  /-- The frame, counted modulo 256. -/
  frame : UInt8
  /-- The subframe within the frame. -/
  subframe : UInt8
  /-- The slot within the subframe. -/
  slot : UInt8
deriving DecidableEq

/-- The numerologies with a defined slot length, named by their subcarrier spacing. -/
inductive Numerology where
  | khz15
  | khz30
  | khz60
  | khz120
deriving DecidableEq

namespace Numerology

/-- The number of a numerology: the spacing doubles with each step. -/
def index : Numerology → Nat
  | khz15 => 0
  | khz30 => 1
  | khz60 => 2
  | khz120 => 3

/-- The numerology of a number, if there is one. -/
def ofIndex? : Nat → Option Numerology
  | 0 => some khz15
  | 1 => some khz30
  | 2 => some khz60
  | 3 => some khz120
  | _ => none

/-- The numerology of a number; a number without one stands for the narrowest spacing. -/
def ofIndexD (mu : Nat) : Numerology :=
  (ofIndex? mu).getD khz15

@[simp] theorem ofIndex?_index (mu : Numerology) : ofIndex? mu.index = some mu := by
  cases mu <;> rfl

/-- Subcarrier spacing in kilohertz. -/
def spacingKHz (mu : Numerology) : Nat :=
  15 * 2 ^ mu.index

/-- Slot length in microseconds. -/
def slotMicros (mu : Numerology) : Nat :=
  1000 / 2 ^ mu.index

/-- Slots in a subframe. -/
def slotsPerSubframe (mu : Numerology) : Nat :=
  2 ^ mu.index

/-- Slots in a frame. -/
def slotsPerFrame (mu : Numerology) : Nat :=
  mu.slotsPerSubframe * subframesPerFrame

/-- Symbol length in whole nanoseconds, rounded down. -/
def symbolNanos (mu : Numerology) : Nat :=
  mu.slotMicros * 1000 / symbolsPerSlot

/-- Slots in one second, where the slot counter starts again. -/
def slotsPerSecond (mu : Numerology) : Nat :=
  1000 / mu.slotMicros * 1000

/-- The slot counter at a slot number that may lie before zero or beyond the second. -/
def wrapSlot (mu : Numerology) (slot : Int) : Nat :=
  (slot % mu.slotsPerSecond).toNat

/-- The wire name of a slot. -/
def slotTime (mu : Numerology) (slot : Nat) : SlotTime where
  frame := UInt8.ofNat (slot / mu.slotsPerFrame)
  subframe := UInt8.ofNat (slot / mu.slotsPerSubframe % subframesPerFrame)
  slot := UInt8.ofNat (slot % mu.slotsPerSubframe)

/-- The slot number, within 256 frames, that a wire name stands for. -/
def slotIndex (mu : Numerology) (time : SlotTime) : Nat :=
  (time.frame.toNat * subframesPerFrame + time.subframe.toNat) * mu.slotsPerSubframe
    + time.slot.toNat

end Numerology

/-- Subcarrier spacing in kilohertz of a numerology number, also of the one beyond those with a
slot length. -/
def spacingKHz? (mu : Nat) : Option Nat :=
  if mu ≤ 4 then some (15 * 2 ^ mu) else none

end OpenFronthaul
