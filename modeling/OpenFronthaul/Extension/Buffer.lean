import OpenFronthaul.Extension.Basic

/-!
# Extensions in a buffer

A message is written to the end of a buffer.  An extension puts its parts there one by one, and may
turn out to be refused when some of them are there already; then the buffer is cut back to what it
was (`writeBlock`).  The length of a block is only known behind its contents, and is filled in last.
-/

namespace OpenFronthaul

/-- A step that writes to the end of a buffer; what it wrote stays when it fails. -/
abbrev Writer (α : Type) := ExceptT Error (StateM Bytes) α

/-- Put bytes at the end of the buffer. -/
def put (bytes : Bytes) : Writer Unit :=
  modify (· ++ bytes)

/-- Put a number at the end of the buffer, in the given number of bytes. -/
def putNat (count value : Nat) : Writer Unit :=
  put (Bytes.ofNat count value)

/-! ## Contents -/

namespace Extension

/-- Put beams at the end of the buffer, as far as they fit fifteen bits. -/
def writeBeams (beams : List UInt16) : Writer Unit :=
  beams.forM fun beam => do
    checkBeam beam
    putNat 2 beam.toNat

end Extension

/-- Write the contents of the extension. -/
def WeightVector.writeBody (v : WeightVector) : Writer Unit := do
  WeightCompression.checkWidth v.width
  put [v.coding.method.header v.width]
  put (← v.coding.encodeParam)
  put (← Weight.pack v.width.toNat v.weights).toBytes

/-- Write the contents of the extension. -/
def BeamAttributes.writeBody (a : BeamAttributes) : Writer Unit := do
  (a.parameters.forM BeamParameter.check : Except Error Unit)
  if 7 < a.azimuthSidelobe.toNat ∨ 7 < a.zenithSidelobe.toNat then throw .sidelobeTooWide
  put [codePair a.azimuth.widthCode a.zenith.widthCode]
  put [codePair a.azimuthWidth.widthCode a.zenithWidth.widthCode]
  put a.bits.toBytes
  put [codePair a.azimuthSidelobe a.zenithSidelobe]

/-- Write the contents of the extension. -/
def Precoding.writeBody (p : Precoding) : Writer Unit := do
  checkNibble .layerId p.layer.id
  checkNibble .numLayers p.layer.count
  match p.first with
  | none =>
    put [p.layer.codebook]
    put [nibbles p.layer.id p.layer.count]
  | some first =>
    checkNibble .txScheme first.scheme
    checkNibble .crsSymbol first.crsSymbol
    if 0xfff < first.crsReMask.toNat then throw (.tooWide .crsReMask first.crsReMask.toNat 12)
    if first.beams.length ≠ 1 ∧ first.beams.length ≠ 3 then
      throw (.precodingBeamCount first.beams.length)
    put [p.layer.codebook]
    put [nibbles p.layer.id p.layer.count]
    putNat 2 (first.scheme.toNat * 4096 + first.crsReMask.toNat)
    put [UInt8.ofNat (first.crsShift.toNat * 128 + first.crsSymbol.toNat)]
    put [0]
    Extension.writeBeams first.beams

/-- Write the contents of the extension. -/
def ModulationScaling.writeBody (m : ModulationScaling) : Writer Unit := do
  if 0x7fff < m.scaler.toNat then throw (.tooWide .modulationScaler m.scaler.toNat 15)
  putNat 2 (m.shifted.toNat * 0x8000 + m.scaler.toNat)

/-- Write the contents of the extension. -/
def ModulationSet.writeBody (sets : List ModulationSet) : Writer Unit := do
  if sets.isEmpty ∨ maxSets < sets.length then throw (.modulationSetCount sets.length)
  put (← encodeAll sets).toBytes

/-- Write the contents of the extension. -/
def PrbGroups.writeBody (g : PrbGroups) : Writer Unit := do
  let code ← codeOf g.size.toNat
  if 0xfffffff < g.groupMask.toNat then throw (.tooWide .groupMask g.groupMask.toNat 28)
  if 0x3fff < g.symbolMask.toNat then throw (.tooWide .symbolMask g.symbolMask.toNat 14)
  putNat 4 (code * 0x10000000 + g.groupMask.toNat)
  putNat 2 g.symbolMask.toNat

/-- Write the contents of the extension. -/
def AntennaMask.writeBody (mask : UInt16) : Writer Unit :=
  putNat 2 mask.toNat

/-- Write the contents of the extension. -/
def Regularization.writeBody (factor : Int16) : Writer Unit :=
  putNat 2 factor.toUInt16.toNat

/-- Write the contents of the extension. -/
def Technology.writeBody (technology : Technology) : Writer Unit := do
  put [UInt8.ofNat technology.code]
  put [0]

/-- Write the contents of the extension. -/
def BeamGroup.writeBody (g : BeamGroup) : Writer Unit := do
  if 0x3f < g.antennas.toNat then throw (.tooWide .numAntennas g.antennas.toNat 6)
  put [UInt8.ofNat (g.type.code * 64 + g.antennas.toNat)]
  match g.type with
  | .vectorList =>
    if g.beams.length ≠ g.antennas.toNat then
      throw (.groupBeamCount g.beams.length g.antennas.toNat)
    Extension.writeBeams g.beams
  | .common | .matrix =>
    if !g.beams.isEmpty then throw .beamsWithoutList
    put [0]

/-- Write what stands behind the length in the fixed part of the extension. -/
def WeightBundles.writeBody (b : WeightBundles) : Writer Unit := do
  put [UInt8.ofNat (b.beamsOnly.toNat * 128 + b.resetAfter.toNat * 64)]
  put [b.bundlePrbs]
  put [b.method.header b.width]
  putNat 2 b.count.toNat

/-! ## Blocks -/

namespace Extension

/-- Write the block of a short extension around its contents; the result is its length.  A block
that is refused is taken out of the buffer again. -/
def writeBlock (kind : ExtensionKind) (more : Bool) (body : Writer Unit) : Writer Nat := do
  let start := (← get).length
  put [typeByte kind more]
  put [0]
  tryCatch body fun e => do
    modify (·.take start)
    throw e
  let length := alignUp ((← get).length - start) wordLength
  let words := length / wordLength
  if 255 < words then
    modify (·.take start)
    throw (.extensionTooLong kind length)
  modify fun buffer => buffer ++ Bytes.zeros (start + length - buffer.length)
  modify (·.set (start + 1) (UInt8.ofNat words))
  return length

/-- Write the fixed part of an extension with bundles; the result are the zeros that close it behind
the shared buffer. -/
def writeHeader (b : WeightBundles) (more : Bool) : Writer Nat := do
  WeightCompression.checkWidth b.width
  let length := WeightBundles.headerLength + b.payload.bytes.length
  let total := alignUp length wordLength
  let words := total / wordLength
  if 65535 < words then throw (.bundlesTooLong total)
  put [typeByte .weightBundles more]
  putNat 2 words
  b.writeBody
  return total - length

/-- What is in the buffer of an extension. -/
inductive Written where
  /-- A whole block of the given length. -/
  | inline (length : Nat)
  /-- The fixed part; the shared buffer and some zeros follow behind it. -/
  | external (payload : SharedBuffer) (zeros : Nat)
deriving DecidableEq

/-- Write the contents of an extension. -/
def writeBody : Extension → Writer Unit
  | beamWeights v => v.writeBody
  | beamAttributes a => a.writeBody
  | precoding p => p.writeBody
  | modulationScaling m => m.writeBody
  | modulationSets s => ModulationSet.writeBody s
  | prbGroups g => g.writeBody
  | antennaMask m => AntennaMask.writeBody m
  | regularization f => Regularization.writeBody f
  | spectrumSharing t => t.writeBody
  | beamGroup g => g.writeBody
  | weightBundles b => b.writeBody

/-- Write an extension; `more` says that another one follows. -/
def write (e : Extension) (more : Bool) : Writer Written :=
  match e with
  | weightBundles b => return .external b.payload (← writeHeader b more)
  | e => return .inline (← writeBlock e.kind more e.writeBody)

end Extension

end OpenFronthaul
