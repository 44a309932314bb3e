import OpenFronthaul.Frame.Pattern
import OpenFronthaul.Frame.Rate
import OpenFronthaul.Numerology

/-!
# Frame structures

A carrier repeats a pattern of slots; on paired spectrum the pattern is one slot that carries both
directions.  The structure answers what a slot or a symbol carries, and clips a range of symbols to
the first run of symbols of one use (`clip?`).
-/

namespace OpenFronthaul

/-- A slot of the repeating pattern. -/
structure PatternSlot where
  /-- What the slot carries. -/
  kind : SlotKind
  /-- What each symbol carries. -/
  symbols : SlotPattern
deriving DecidableEq

namespace PatternSlot

/-- The slot of paired spectrum. -/
def paired : PatternSlot :=
  ⟨.fdd, SlotPattern.uniform .fdd⟩

/-- A slot of unpaired spectrum. -/
def ofPattern (pattern : SlotPattern) : PatternSlot :=
  ⟨pattern.kind, pattern⟩

/-- Whether a slot is special and has a symbol of a use. -/
def isSpecialWith (slot : PatternSlot) (use : SymbolUse) : Bool :=
  slot.kind = .special && 0 < slot.symbols.count use

/-- Whether a slot serves the traffic of a kind of slot: its own kind, any kind on paired spectrum,
and on a special slot a direction that has a symbol. -/
def serves (slot : PatternSlot) (kind : SlotKind) : Bool :=
  slot.kind = kind || slot.kind = .fdd
    || (kind = .dl && slot.isSpecialWith .dl) || (kind = .ul && slot.isSpecialWith .ul)

/-- Clip `start, …, start + count - 1` to the first run of symbols of a use; the result is the first
symbol and the number of symbols, and there is none when no symbol is left. -/
def clip? (slot : PatternSlot) (use : SymbolUse) (start count : Nat) : Option (Nat × Nat) :=
  let symbols := slot.symbols.toList
  let first := symbols.findIdx (· = use)
  let run := (symbols.drop first).takeWhile (· = use)
  let lo := max first start
  let hi := min (first + run.length) (start + count)
  if lo < hi then some (lo, hi - lo) else none

end PatternSlot

/-- The longest pattern of slots on unpaired spectrum. -/
def maxTddPeriod : Nat := 80

/-- What the slots of a carrier carry. -/
structure FrameStructure where
  /-- Numerology of the carrier. -/
  mu : Numerology
  /-- Paired or unpaired spectrum. -/
  duplex : Duplex
  /-- The repeating slots. -/
  slots : List PatternSlot
  /-- Share of the slots with downlink symbols. -/
  dlRate : Rate
  /-- Share of the slots with uplink symbols. -/
  ulRate : Rate
deriving DecidableEq

namespace FrameStructure

/-- Paired spectrum. -/
def fdd (mu : Numerology) : FrameStructure :=
  ⟨mu, .fdd, [.paired], ⟨1, 1⟩, ⟨1, 1⟩⟩

/-- The share of slots that are of one direction or special with a symbol of it. -/
def rate (slots : List PatternSlot) (direction : Direction) : Rate where
  part := slots.countP fun slot =>
    slot.kind = .ofDirection direction || slot.isSpecialWith (.ofDirection direction)
  whole := slots.length

/-- Unpaired spectrum with the given pattern of slots. -/
def tdd (mu : Numerology) (patterns : List SlotPattern) : Except Error FrameStructure :=
  if patterns.isEmpty ∨ maxTddPeriod < patterns.length then
    throw (.tddPeriod patterns.length)
  else
    let slots := patterns.map PatternSlot.ofPattern
    pure ⟨mu, .tdd, slots, rate slots .dl, rate slots .ul⟩

/-- The structure after a change of spectrum and pattern; on paired spectrum there is no pattern. -/
def reconfigure (frame : FrameStructure) (duplex : Duplex) (patterns : List SlotPattern) :
    Except Error FrameStructure :=
  match duplex with
  | .fdd => pure (fdd frame.mu)
  | .tdd => tdd frame.mu patterns

/-- Slots after which the pattern repeats. -/
def period (frame : FrameStructure) : Nat :=
  frame.slots.length

/-- The pattern slot of a slot number, which may lie before zero or beyond the second. -/
def slot (frame : FrameStructure) (number : Int) : PatternSlot :=
  frame.slots[frame.mu.wrapSlot number % frame.period]?.getD .paired

/-- What a slot carries. -/
def slotKind (frame : FrameStructure) (number : Int) : SlotKind :=
  (frame.slot number).kind

/-- Whether a slot serves the traffic of a kind of slot. -/
def serves (frame : FrameStructure) (number : Int) (kind : SlotKind) : Bool :=
  (frame.slot number).serves kind

/-- Whether a slot mixes directions. -/
def isSpecial (frame : FrameStructure) (number : Int) : Bool :=
  frame.slotKind number = .special

/-- What a symbol of a slot carries; symbols count modulo fourteen. -/
def symbolUse (frame : FrameStructure) (number : Int) (symbol : Nat) : SymbolUse :=
  (frame.slot number).symbols.get ⟨symbol % 14, Nat.mod_lt _ (by decide)⟩

/-- Clip a range of symbols of a slot to the first run of symbols of a use. -/
def clip? (frame : FrameStructure) (use : SymbolUse) (number : Int) (start count : Nat) :
    Option (Nat × Nat) :=
  (frame.slot number).clip? use start count

end FrameStructure

end OpenFronthaul
