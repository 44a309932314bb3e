import OpenFronthaul.Extension.Block

/-!
# Beamforming weights

A weight is a complex number whose parts are packed with one to sixteen bits each.  `WeightVector`
is the extension that carries one vector of weights for a section; the packing is shared with the
bundles of flexible weights.
-/

namespace OpenFronthaul

-- Powers are those of the core library, whatever else is imported.
attribute [local instance (high)] instPowNat

/-- A complex beamforming weight. -/
structure Weight where
  re : Int
  im : Int
deriving DecidableEq

namespace Weight

/-- The part of a weight in its bits; a part that needs more bits is refused. -/
def packPart (width : Nat) (part : Int) : Except Error Bits :=
  if part < -2 ^ (width - 1) ∨ 2 ^ (width - 1) ≤ part then throw (.weightTooWide part width)
  else pure (Bits.ofInt width part)

/-- The bits of weights, the real part of each before the imaginary part. -/
def pack (width : Nat) : List Weight → Except Error Bits
  | [] => pure []
  | weight :: rest => do
    let re ← packPart width weight.re
    let im ← packPart width weight.im
    return re ++ im ++ (← pack width rest)

/-- Bytes of packed weights. -/
def packedLength (count width : Nat) : Nat :=
  (count * 2 * width + 7) / 8

/-- The next weight; of a part wider than sixteen bits the low sixteen count. -/
def read? (width : Nat) (reader : BitReader) : Option (Weight × BitReader) := do
  let (re, reader) ← reader.readSigned? width
  let (im, reader) ← reader.readSigned? width
  return (⟨Int.bmod re 65536, Int.bmod im 65536⟩, reader)

/-- The given number of weights. -/
def readMany (width : Nat) : Nat → BitReader → Except Error (List Weight)
  | 0, _ => pure []
  | count + 1, reader =>
    match read? width reader with
    | some (weight, reader) => return weight :: (← readMany width count reader)
    | none => throw (.truncated .packedWeights)

/-- The given number of weights packed in some data. -/
def unpack (width count : Nat) (data : Bytes) : Except Error (List Weight) :=
  readMany width count (.ofBytes data)

end Weight

namespace WeightCompression

/-- Bytes of the parameter in front of compressed weights. -/
def paramLength : WeightCompression → Except Error Nat
  | none => pure 0
  | blockFloatingPoint | blockScaling | muLaw => pure 1
  | beamspace => throw .beamspaceUnsupported

/-- The byte that gives width and method of weights. -/
def header (method : WeightCompression) (width : UInt8) : UInt8 :=
  UInt8.ofNat (SampleWidth.toWire width * 16 + method.code)

/-- The method in a byte that gives width and method. -/
def ofHeader (byte : Nat) : Except Error WeightCompression :=
  match ofCode? (byte % 16) with
  | some method => pure method
  | Option.none => throw (.unknownWeightCompression (byte % 16))

/-- Weights are packed with one to sixteen bits. -/
def checkWidth (width : UInt8) : Except Error Unit :=
  if width.toNat = 0 ∨ 16 < width.toNat then throw (.outOfRange .weightWidth width.toNat)
  else pure ()

end WeightCompression

/-- The compression of one vector of weights with its parameter. -/
inductive WeightCoding where
  | none
  /-- All parts share an exponent. -/
  | blockFloatingPoint (exponent : UInt8)
  | blockScaling
  | muLaw
  | beamspace
deriving DecidableEq

namespace WeightCoding

/-- The compression method. -/
def method : WeightCoding → WeightCompression
  | none => .none
  | blockFloatingPoint _ => .blockFloatingPoint
  | blockScaling => .blockScaling
  | muLaw => .muLaw
  | beamspace => .beamspace

/-- The parameter in front of the weights. -/
def encodeParam : WeightCoding → Except Error Bytes
  | none => pure []
  | blockFloatingPoint exponent =>
    if 15 < exponent.toNat then throw (.tooWide .exponent exponent.toNat 4) else pure [exponent]
  | other => throw (.weightsNotWritten other.method)

/-- The compression of a method, with the parameter behind the first byte of some contents. -/
def parse (method : WeightCompression) (body : Bytes) : Except Error WeightCoding :=
  match method with
  | .none => pure none
  | .blockFloatingPoint => do
    Extension.require .exponent 2 body
    return blockFloatingPoint (UInt8.ofNat (Extension.byteAt body 1 % 16))
  | other => throw (.weightsUnsupported other)

end WeightCoding

/-- One vector of beamforming weights for a section. -/
structure WeightVector where
  /-- Bits of each part of a weight. -/
  width : UInt8
  /-- Compression of the weights. -/
  coding : WeightCoding
  /-- The weights, one for each antenna element. -/
  weights : List Weight
deriving DecidableEq

namespace WeightVector

/-- The contents of the extension. -/
def encodeBody (v : WeightVector) : Except Error Bytes := do
  WeightCompression.checkWidth v.width
  let param ← v.coding.encodeParam
  let bits ← Weight.pack v.width.toNat v.weights
  return v.coding.method.header v.width :: param ++ bits.toBytes

/-- Read the contents of the extension, with the number of bytes that they take.  The number of
weights is not on the wire. -/
def parseBody (body : Bytes) (count : Option UInt16) : Except Error (WeightVector × Nat) := do
  Extension.require (.body .beamWeights) 1 body
  let head := Extension.byteAt body 0
  let width := SampleWidth.ofWire (head / 16)
  let method ← WeightCompression.ofHeader head
  let coding ← WeightCoding.parse method body
  let some count := count | throw .weightCountUnknown
  let offset := 1 + (← method.paramLength)
  let length := Weight.packedLength count.toNat width.toNat
  Extension.require .weights length (body.drop offset)
  let weights ← Weight.unpack width.toNat count.toNat ((body.drop offset).take length)
  return (⟨width, coding, weights⟩, offset + length)

end WeightVector

end OpenFronthaul
