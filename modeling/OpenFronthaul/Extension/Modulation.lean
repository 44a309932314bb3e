import OpenFronthaul.Extension.Block

/-!
# Modulation compression

`ModulationScaling` scales all resource elements of a section alike; a list of `ModulationSet`
scales several groups of resource elements.  Sets are packed in pairs of eight bytes; a last set
without a partner takes four.
-/

namespace OpenFronthaul

/-- One scaling for all resource elements. -/
structure ModulationScaling where
  /-- The constellation is shifted. -/
  shifted : Bool := false
  /-- The scaler. -/
  scaler : UInt16 := 0
deriving DecidableEq

namespace ModulationScaling

/-- The contents of the extension. -/
def encodeBody (m : ModulationScaling) : Except Error Bytes :=
  if 0x7fff < m.scaler.toNat then throw (.tooWide .modulationScaler m.scaler.toNat 15)
  else pure (Bytes.ofNat 2 (m.shifted.toNat * 0x8000 + m.scaler.toNat))

/-- Read the contents of the extension. -/
def parseBody (body : Bytes) : Except Error ModulationScaling := do
  Extension.require (.body .modulationScaling) 2 body
  let word := Extension.numberAt body 0 2
  return ⟨0x8000 ≤ word, UInt16.ofNat (word % 0x8000)⟩

end ModulationScaling

/-- The scaling of one group of resource elements. -/
structure ModulationSet where
  /-- The resource elements. -/
  reMask : UInt16 := 0
  /-- The constellation is shifted. -/
  shifted : Bool := false
  /-- The offset of the scale. -/
  offset : UInt16 := 0
deriving DecidableEq

namespace ModulationSet

/-- The most sets in one extension. -/
def maxSets : Nat := 6

/-- The bits of a set. -/
def encode (s : ModulationSet) : Except Error Bits :=
  if 0xfff < s.reMask.toNat ∨ 0x7fff < s.offset.toNat then
    throw (.modulationSetRange s.reMask.toNat s.shifted s.offset.toNat)
  else
    pure (Bits.ofNat 12 s.reMask.toNat ++ [s.shifted] ++ Bits.ofNat 15 s.offset.toNat)

/-- The bits of a list of sets: eight spare bits behind each pair, four behind a last one. -/
def encodeAll : List ModulationSet → Except Error Bits
  | [] => pure []
  | [s] => return (← s.encode) ++ Bits.ofNat 4 0
  | s :: t :: rest => do
    let first ← s.encode
    let second ← t.encode
    return first ++ second ++ Bits.ofNat 8 0 ++ (← encodeAll rest)

/-- The contents of the extension. -/
def encodeBody (sets : List ModulationSet) : Except Error Bytes := do
  if sets.isEmpty ∨ maxSets < sets.length then throw (.modulationSetCount sets.length)
  return (← encodeAll sets).toBytes

/-- Bytes of the extension with the given number of sets. -/
def wireLength (sets : Nat) : Nat :=
  alignUp (2 + 8 * (sets / 2) + 4 * (sets % 2)) Extension.wordLength

/-- The next set. -/
def read? (reader : BitReader) : Option (ModulationSet × BitReader) := do
  let (reMask, reader) ← reader.read? 12
  let (shifted, reader) ← reader.read? 1
  let (offset, reader) ← reader.read? 15
  return (⟨UInt16.ofNat reMask, shifted = 1, UInt16.ofNat offset⟩, reader)

/-- The given number of sets, with the spare bits behind each pair left out. -/
def readMany? : Nat → BitReader → Option (List ModulationSet)
  | 0, _ => some []
  | 1, reader => do
    let (s, _) ← read? reader
    return [s]
  | count + 2, reader => do
    let (s, reader) ← read? reader
    let (t, reader) ← read? reader
    let (_, reader) ← reader.read? 8
    return s :: t :: (← readMany? count reader)

/-- The number of sets for which some contents have room, at most the most allowed. -/
def roomFor (length : Nat) : Nat :=
  min (2 * (length / 8) + (if 4 ≤ length % 8 then 1 else 0)) maxSets

/-- Read the contents of the extension. -/
def parseBody (body : Bytes) : Except Error (List ModulationSet) :=
  if roomFor body.length = 0 then throw .noModulationSets
  else
    match readMany? (roomFor body.length) (.ofBytes body) with
    | some sets => pure sets
    | none => throw (.truncated (.body .modulationSets))

end ModulationSet

end OpenFronthaul
