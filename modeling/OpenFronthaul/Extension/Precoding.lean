import OpenFronthaul.Extension.Block

/-!
# Precoding

Codebook precoding of data layers.  The first layer also carries the transmission scheme, the
reference signals and the beams of the other antennas, one for two antennas and three for four; a
further layer has only its place.  A reader tells the shapes apart by the length of the extension.
-/

namespace OpenFronthaul

/-- The place of a layer within the codebook. -/
structure Layer where
  /-- Entry of the codebook. -/
  codebook : UInt8 := 0
  /-- Number of the layer. -/
  id : UInt8 := 0
  /-- Number of layers. -/
  count : UInt8 := 0
deriving DecidableEq

/-- What the first layer carries beyond its place. -/
structure FirstLayer where
  /-- Transmission scheme. -/
  scheme : UInt8 := 0
  /-- Resource elements of the reference signals. -/
  crsReMask : UInt16 := 0
  /-- Shift of the reference signals. -/
  crsShift : Bool := false
  /-- Symbol of the reference signals. -/
  crsSymbol : UInt8 := 0
  /-- Beams of the other antennas. -/
  beams : List UInt16 := []
deriving DecidableEq

/-- Precoding of one data layer. -/
structure Precoding where
  /-- The place of the layer. -/
  layer : Layer
  /-- The further contents of the first layer. -/
  first : Option FirstLayer
deriving DecidableEq

namespace Precoding

/-- Bytes of the extension. -/
def wireLength (p : Precoding) : Nat :=
  match p.first with
  | some first => if first.beams.length = 1 then 12 else 16
  | none => 4

/-- Refuse a value of more than four bits. -/
def checkNibble (field : WireField) (value : UInt8) : Except Error Unit :=
  if 15 < value.toNat then throw (.tooWide field value.toNat 4) else pure ()

/-- Two values of four bits in one byte. -/
def nibbles (high low : UInt8) : UInt8 :=
  UInt8.ofNat (high.toNat * 16 + low.toNat)

/-- The contents of the extension. -/
def encodeBody (p : Precoding) : Except Error Bytes := do
  checkNibble .layerId p.layer.id
  checkNibble .numLayers p.layer.count
  let place := [p.layer.codebook, nibbles p.layer.id p.layer.count]
  match p.first with
  | none => return place
  | some first =>
    checkNibble .txScheme first.scheme
    checkNibble .crsSymbol first.crsSymbol
    if 0xfff < first.crsReMask.toNat then throw (.tooWide .crsReMask first.crsReMask.toNat 12)
    if first.beams.length ≠ 1 ∧ first.beams.length ≠ 3 then
      throw (.precodingBeamCount first.beams.length)
    let beams ← Extension.encodeBeams first.beams
    return place ++ Bytes.ofNat 2 (first.scheme.toNat * 4096 + first.crsReMask.toNat)
      ++ [UInt8.ofNat (first.crsShift.toNat * 128 + first.crsSymbol.toNat), 0] ++ beams

/-- Read the first layer with the given number of beams. -/
def parseFirst (body : Bytes) (beams : Nat) : Except Error FirstLayer := do
  Extension.require .firstLayer (6 + beams * 2) body
  let word := Extension.numberAt body 2 2
  let signals := Extension.byteAt body 4
  return { scheme := UInt8.ofNat (word / 4096)
           crsReMask := UInt16.ofNat (word % 4096)
           crsShift := 128 ≤ signals
           crsSymbol := UInt8.ofNat (signals % 16)
           beams := Extension.beamsAt beams (body.drop 6) }

/-- Read the contents of an extension of the given number of words. -/
def parseBody (body : Bytes) (words : Nat) : Except Error Precoding := do
  Extension.require (.body .precoding) 2 body
  let place := Extension.byteAt body 1
  let layer : Layer :=
    ⟨UInt8.ofNat (Extension.byteAt body 0), UInt8.ofNat (place / 16), UInt8.ofNat (place % 16)⟩
  match words with
  | 1 => return ⟨layer, none⟩
  | 3 => return ⟨layer, some (← parseFirst body 1)⟩
  | 4 => return ⟨layer, some (← parseFirst body 3)⟩
  | words => throw (.precodingLength words)

end Precoding

end OpenFronthaul
