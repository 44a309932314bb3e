import OpenFronthaul.Extension.Weights
import OpenFronthaul.Packet

/-!
# Bundles of beamforming weights

The weights of all bundles of a section lie in a shared buffer that closes the last section of a
message and is sent without being copied.  A bundle is its compression parameter, if there is one,
its beam and its weights; with weights switched off it is the beam alone.  `WeightBundles.pack`
makes the contents of the buffer and `WeightBundles.bundles` takes them apart.
-/

namespace OpenFronthaul

/-- One bundle of weights. -/
structure Bundle where
  /-- The beam. -/
  beam : UInt16 := 0
  /-- The shared exponent, under block floating point. -/
  exponent : Option UInt8 := none
  /-- The weights. -/
  weights : List Weight := []
deriving DecidableEq

/-- The bundles of a section. -/
structure WeightBundles where
  /-- The bundles are beams alone. -/
  beamsOnly : Bool := false
  /-- Reset behind a bundle of resource blocks. -/
  resetAfter : Bool := false
  /-- Resource blocks in a bundle. -/
  bundlePrbs : UInt8
  /-- Compression of the weights. -/
  method : WeightCompression
  /-- Bits of each part of a weight. -/
  width : UInt8
  /-- Number of bundles. -/
  count : UInt16
  /-- The packed bundles. -/
  payload : SharedBuffer
deriving DecidableEq

namespace WeightBundles

/-- Bytes of the fixed part of the extension. -/
def headerLength : Nat := 8

/-- Bytes of a bundle with the given number of weights. -/
def bundleLength (weights : Nat) (width : UInt8) (method : WeightCompression) :
    Except Error Nat := do
  return (← method.paramLength) + 2 + Weight.packedLength weights width.toNat

/-! ## Packing -/

/-- The parameter in front of a bundle. -/
def encodeExponent (method : WeightCompression) (exponent : Option UInt8) : Bytes :=
  if method = .blockFloatingPoint then [UInt8.ofNat ((exponent.getD 0).toNat % 16)] else []

/-- The bytes of a bundle. -/
def packOne (width : UInt8) (method : WeightCompression) (b : Bundle) : Except Error Bytes := do
  Extension.checkBeam b.beam
  let bits ← Weight.pack width.toNat b.weights
  return encodeExponent method b.exponent ++ Bytes.ofNat 2 b.beam.toNat ++ bits.toBytes

/-- The bytes of bundles. -/
def pack (bundles : List Bundle) (width : UInt8) (method : WeightCompression) :
    Except Error Bytes := do
  WeightCompression.checkWidth width
  if !method.isPackable then throw (.weightsNotWritten method)
  return (← bundles.mapM (packOne width method)).flatten

/-- Bundles in a buffer of their own. -/
def ofBundles (bundlePrbs width : UInt8) (method : WeightCompression) (bundles : List Bundle)
    (account : Nat) : Except Error WeightBundles := do
  if 65535 < bundles.length then throw (.bundleCount bundles.length)
  let payload ← pack bundles width method
  return { bundlePrbs, method, width, count := UInt16.ofNat bundles.length
           payload := ⟨account, payload⟩ }

/-- Beams alone in a buffer of their own. -/
def ofBeams (bundlePrbs : UInt8) (beams : List UInt16) (account : Nat) :
    Except Error WeightBundles := do
  let payload ← Extension.encodeBeams beams
  if 65535 < beams.length then throw (.beamCount beams.length)
  return { beamsOnly := true, bundlePrbs, method := .none, width := 16
           count := UInt16.ofNat beams.length, payload := ⟨account, payload⟩ }

/-! ## Unpacking -/

/-- Pieces of one length from the start of some data. -/
def chunks (length : Nat) : Nat → Bytes → List Bytes
  | 0, _ => []
  | count + 1, data => data.take length :: chunks length count (data.drop length)

/-- Take one bundle apart. -/
def unpackOne (weights : Nat) (width : UInt8) (paramLength : Nat) (data : Bytes) :
    Except Error Bundle := do
  let exponent :=
    if paramLength = 1 then some (UInt8.ofNat (Extension.byteAt data 0 % 16)) else none
  let beam := Extension.beamAt (data.drop paramLength)
  let weights ← Weight.unpack width.toNat weights (data.drop (paramLength + 2))
  return ⟨beam, exponent, weights⟩

/-- The bundles in the buffer, each with the given number of weights. -/
def bundles (e : WeightBundles) (weights : Nat) : Except Error (List Bundle) := do
  let data := e.payload.bytes
  let count := e.count.toNat
  if e.beamsOnly then
    Extension.require .bundleBeams (count * 2) data
    return (Extension.beamsAt count data).map fun beam => { beam }
  else
    let paramLength ← e.method.paramLength
    if !e.method.isPackable then throw (.weightsUnsupported e.method)
    let length ← bundleLength weights e.width e.method
    Extension.require .bundles (length * count) data
    (chunks length count data).mapM (unpackOne weights e.width paramLength)

/-! ## The extension -/

/-- The fixed part of the extension, and the zeros that close it behind the buffer. -/
def encodeHeader (e : WeightBundles) (more : Bool) : Except Error (Bytes × Nat) := do
  WeightCompression.checkWidth e.width
  let length := headerLength + e.payload.bytes.length
  let total := alignUp length Extension.wordLength
  let words := total / Extension.wordLength
  if 65535 < words then throw (.bundlesTooLong total)
  let flags := UInt8.ofNat (e.beamsOnly.toNat * 128 + e.resetAfter.toNat * 64)
  return (Extension.typeByte .weightBundles more :: Bytes.ofNat 2 words
      ++ [flags, e.bundlePrbs, e.method.header e.width] ++ Bytes.ofNat 2 e.count.toNat,
    total - length)

/-- Bytes of the bundles within a region of an extension, where the number of weights may be
known. -/
def payloadLength (e : WeightBundles) (region : Nat) (weights : Option UInt16) :
    Except Error Nat := do
  if e.beamsOnly then return e.count.toNat * 2
  match weights with
  | some weights => return e.count.toNat * (← bundleLength weights.toNat e.width e.method)
  | none => return region

/-- Read the extension of the given length at the start of some data, with the number of bytes that
it takes.  Where the number of weights is not known the bundles take the whole extension. -/
def parse (data : Bytes) (length : Nat) (weights : Option UInt16) :
    Except Error (WeightBundles × Nat) := do
  Extension.require (.body .weightBundles) (max headerLength length) data
  if length < headerLength then throw (.bundleHeaderCut length)
  let flags := Extension.byteAt data 3
  let head := Extension.byteAt data 5
  let method ← WeightCompression.ofHeader head
  let header : WeightBundles :=
    { beamsOnly := 128 ≤ flags
      resetAfter := 64 ≤ flags % 128
      bundlePrbs := UInt8.ofNat (Extension.byteAt data 4)
      method
      width := SampleWidth.ofWire (head / 16)
      count := UInt16.ofNat (Extension.numberAt data 6 2)
      payload := ⟨0, []⟩ }
  let region := length - headerLength
  let taken ← header.payloadLength region weights
  if region < taken then throw (.bundlesPastRegion taken region)
  return ({ header with payload := ⟨0, (data.drop headerLength).take taken⟩ },
    alignUp (headerLength + taken) Extension.wordLength)

/-! ## Size limits -/

/-- Bytes of an Ethernet header. -/
def ethernetLength : Nat := 14

/-- Bytes of a frame around the bundles of one section: the Ethernet, eCPRI and message headers, the
section, the fixed part of the extension and the zeros that close it. -/
def frameOverhead : Nat :=
  ethernetLength + 8 + 8 + 8 + headerLength + (Extension.wordLength - 1)

/-- The most bundles of one message that fit a frame of the given size. -/
def maxBundles (weights : Nat) (width : UInt8) (method : WeightCompression) (mtu : Nat) :
    Except Error Nat := do
  return (mtu - frameOverhead) / (← bundleLength weights width method)

end WeightBundles

end OpenFronthaul
