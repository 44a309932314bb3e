import OpenFronthaul.Extension.Weights
import OpenFronthaul.Packet

/-!
# Resource-block maps

A map tells what is scheduled in a slot: a list of elements, each a block of resource blocks and
symbols with its beam, its compression and its beamforming weights.
-/

namespace OpenFronthaul

/-- The beamforming weights of an element. -/
structure ElementWeights where
  /-- Resource blocks in a bundle; with zero there is one vector for the whole element. -/
  bundlePrbs : UInt8 := 0
  /-- Weights in a vector. -/
  count : UInt16 := 0
  /-- Bits of each part of a weight. -/
  width : UInt8 := 0
  /-- Compression of the one vector. -/
  coding : WeightCoding := .none
  /-- The one vector. -/
  weights : List Weight := []
  /-- Compression of the bundles. -/
  bundleMethod : WeightCompression := .none
  /-- The packed bundles. -/
  bundles : Option SharedBuffer := none
  /-- Number of bundles. -/
  bundleCount : UInt16 := 0
deriving DecidableEq

/-- A block of resource blocks and symbols. -/
structure PrbElement where
  /-- First resource block. -/
  startPrb : UInt16 := 0
  /-- Number of resource blocks. -/
  numPrb : UInt16 := 0
  /-- First symbol. -/
  startSymbol : UInt8 := 0
  /-- Number of symbols. -/
  numSymbols : UInt8 := 14
  /-- Beam. -/
  beam : UInt16 := 0
  /-- New weights are sent with the element. -/
  weightUpdate : Bool := false
  /-- Compression of the user data. -/
  compression : IqCompression := .none
  /-- Sample width of the user data. -/
  iqWidth : UInt8 := 16
  /-- Scaler of modulation compression. -/
  scaler : UInt16 := 0
  /-- The constellation of modulation compression is shifted. -/
  shifted : Bool := false
  /-- User data of each symbol. -/
  pointers : Vector IqPointer 14 := noPointers
  /-- Weights of the beam. -/
  weights : ElementWeights := {}
deriving DecidableEq

namespace PrbElement

/-- Refuse an element without resource blocks, and one whose symbols are none or more than the slot
has.  The number of the element is named in the report. -/
def validate (e : PrbElement) (index : Nat) : Except Error Unit :=
  if e.numPrb.toNat = 0 then throw (.elementEmpty index)
  else if e.numSymbols.toNat = 0
      ∨ symbolsPerSlot < e.startSymbol.toNat + e.numSymbols.toNat then
    throw (.elementSymbols index e.startSymbol.toNat e.numSymbols.toNat)
  else pure ()

/-- Refuse the first unusable element of a list that starts with the given number. -/
def validateFrom (index : Nat) : List PrbElement → Except Error Unit
  | [] => pure ()
  | e :: rest => do
    e.validate index
    validateFrom (index + 1) rest

end PrbElement

/-- What is scheduled in a slot. -/
structure PrbMap where
  /-- Direction of the user data. -/
  direction : Direction
  /-- The elements; the place of an element is the id of its section. -/
  elements : List PrbElement
deriving DecidableEq

namespace PrbMap

/-- The most elements of a map. -/
def maxElements : Nat := 275

/-- A map of usable elements. -/
def create (direction : Direction) (elements : List PrbElement) : Except Error PrbMap := do
  if maxElements < elements.length then throw (.elementCount elements.length)
  PrbElement.validateFrom 0 elements
  return ⟨direction, elements⟩

/-- The number of elements. -/
def size (map : PrbMap) : Nat :=
  map.elements.length

/-- The element at a place. -/
def get? (map : PrbMap) (index : Nat) : Option PrbElement :=
  map.elements[index]?

/-- The elements that one part of the work on a map is about, from the first to before the second
number.  Parts are counted from zero; a part beyond the last one is taken for the last. -/
def partRange (map : PrbMap) (part parts : Nat) : Nat × Nat :=
  let parts := max parts 1
  let part := min part (parts - 1)
  (map.size * part / parts, map.size * (part + 1) / parts)

end PrbMap

end OpenFronthaul
