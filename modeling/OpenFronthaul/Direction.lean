/-!
# Directions and duplex modes

A control message schedules user data of one direction.  The direction is a single bit on the
wire, and the two directions are always listed in the order of that bit.
-/

namespace OpenFronthaul

/-- The direction of the user data that a message schedules. -/
inductive Direction where
  /-- Received by the radio unit over the air. -/
  | ul
  /-- Transmitted by the radio unit over the air. -/
  | dl
deriving DecidableEq, Hashable

namespace Direction

instance : Inhabited Direction := ⟨.dl⟩

/-- Both directions in the order of their wire bit. -/
def all : List Direction := [.ul, .dl]

/-- The wire bit of a direction, which is also its place in a table of both. -/
def bit : Direction → Nat
  | ul => 0
  | dl => 1

/-- The direction of a wire bit; only the lowest bit of the argument counts. -/
def ofBit (b : Nat) : Direction :=
  if b % 2 = 1 then dl else ul

/-- The word for a direction in reports. -/
def name : Direction → String
  | ul => "Ul"
  | dl => "Dl"

@[simp] theorem ofBit_bit (d : Direction) : ofBit d.bit = d := by
  cases d <;> rfl

theorem bit_lt (d : Direction) : d.bit < 2 := by
  cases d <;> decide

end Direction

/-- Whether both directions share one carrier frequency in turn or have one each. -/
inductive Duplex where
  /-- Paired spectrum: every slot carries both directions. -/
  | fdd
  /-- One spectrum, shared in time by a repeating pattern of slots. -/
  | tdd
deriving DecidableEq

end OpenFronthaul
