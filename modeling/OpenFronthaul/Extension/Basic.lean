import OpenFronthaul.Extension.Beams
import OpenFronthaul.Extension.Bundles
import OpenFronthaul.Extension.Modulation
import OpenFronthaul.Extension.PrbGroups
import OpenFronthaul.Extension.Precoding
import OpenFronthaul.Extension.Scalar

/-!
# Section extensions

The extension of a section is one of eleven kinds.  `Extension.encode` writes it: ten kinds become a
block of bytes, and bundles of weights become a block that is split around their shared buffer.
`Extension.decode` reads the extension at the start of some data.  The announced length frames an
extension even where its contents take fewer bytes; a reader learns of both lengths.
-/

namespace OpenFronthaul

/-- An extension of a section. -/
inductive Extension where
  /-- One vector of beamforming weights. -/
  | beamWeights (vector : WeightVector)
  /-- Attributes of the beam. -/
  | beamAttributes (attributes : BeamAttributes)
  /-- Codebook precoding. -/
  | precoding (precoding : Precoding)
  /-- One modulation scaling. -/
  | modulationScaling (scaling : ModulationScaling)
  /-- Several modulation scalings. -/
  | modulationSets (sets : List ModulationSet)
  /-- A choice of groups of resource blocks. -/
  | prbGroups (groups : PrbGroups)
  /-- The antennas that the section is meant for. -/
  | antennaMask (mask : UInt16)
  /-- The regularization factor. -/
  | regularization (factor : Int16)
  /-- The technology of the slot. -/
  | spectrumSharing (technology : Technology)
  /-- Beams of further antennas. -/
  | beamGroup (group : BeamGroup)
  /-- Bundles of beamforming weights. -/
  | weightBundles (bundles : WeightBundles)
deriving DecidableEq

namespace Extension

/-- The kind of an extension. -/
def kind : Extension → ExtensionKind
  | beamWeights _ => .beamWeights
  | beamAttributes _ => .beamAttributes
  | precoding _ => .precoding
  | modulationScaling _ => .modulationScaling
  | modulationSets _ => .modulationSets
  | prbGroups _ => .prbGroups
  | antennaMask _ => .antennaMask
  | regularization _ => .regularization
  | spectrumSharing _ => .spectrumSharing
  | beamGroup _ => .beamGroup
  | weightBundles _ => .weightBundles

/-- The shared buffer that an extension refers to. -/
def buffer? : Extension → Option SharedBuffer
  | weightBundles b => some b.payload
  | _ => none

/-- Whether an extension refers to a shared buffer. -/
def isBundles (e : Extension) : Bool :=
  e.buffer?.isSome

/-! ## Writing -/

/-- An extension as it is put into a packet. -/
inductive Encoded where
  /-- A whole block. -/
  | inline (block : Bytes)
  /-- The start of a block, the shared buffer behind it, and the number of zeros that close it. -/
  | split (header : Bytes) (buffer : SharedBuffer) (zeros : Nat)
deriving DecidableEq

/-- The segments of an extension. -/
def Encoded.segments : Encoded → List Segment
  | inline block => [.owned block]
  | split header buffer zeros => [.owned header, .shared buffer, .owned (Bytes.zeros zeros)]

/-- Write an extension; `more` says that another one follows. -/
def encode (e : Extension) (more : Bool) : Except Error Encoded :=
  match e with
  | beamWeights v => return .inline (← block .beamWeights more (← v.encodeBody))
  | beamAttributes a => return .inline (← block .beamAttributes more (← a.encodeBody))
  | precoding p => return .inline (← block .precoding more (← p.encodeBody))
  | modulationScaling m => return .inline (← block .modulationScaling more (← m.encodeBody))
  | modulationSets s =>
    return .inline (← block .modulationSets more (← ModulationSet.encodeBody s))
  | prbGroups g => return .inline (← block .prbGroups more (← g.encodeBody))
  | antennaMask m => return .inline (← block .antennaMask more (AntennaMask.encodeBody m))
  | regularization f =>
    return .inline (← block .regularization more (Regularization.encodeBody f))
  | spectrumSharing t => return .inline (← block .spectrumSharing more t.encodeBody)
  | beamGroup g => return .inline (← block .beamGroup more (← g.encodeBody))
  | weightBundles b => do
    let (header, zeros) ← b.encodeHeader more
    return .split header b.payload zeros

/-! ## Reading -/

/-- An extension as it was read. -/
structure Decoded where
  /-- The extension. -/
  extension : Extension
  /-- Another extension follows. -/
  more : Bool
  /-- Bytes that the block announces. -/
  length : Nat
  /-- Bytes that the contents take, zeros up to a whole word included. -/
  consumed : Nat
deriving DecidableEq

/-- Whether the announced length differs from that of the contents. -/
def Decoded.mismatch (d : Decoded) : Bool :=
  d.length ≠ d.consumed

/-- Read the contents of a short extension of the given length, with the bytes that they take. -/
def parseBody (kind : ExtensionKind) (body : Bytes) (length : Nat) (weights : Option UInt16) :
    Except Error (Extension × Nat) :=
  match kind with
  | .beamWeights => do
    let (v, taken) ← WeightVector.parseBody body weights
    return (beamWeights v, blockLength taken)
  | .beamAttributes => do
    let (a, taken) ← BeamAttributes.parseBody body
    return (beamAttributes a, blockLength taken)
  | .precoding => do
    let p ← Precoding.parseBody body (length / wordLength)
    return (precoding p, p.wireLength)
  | .modulationScaling => return (modulationScaling (← ModulationScaling.parseBody body), 4)
  | .modulationSets => do
    let sets ← ModulationSet.parseBody body
    return (modulationSets sets, ModulationSet.wireLength sets.length)
  | .prbGroups => return (prbGroups (← PrbGroups.parseBody body), 8)
  | .antennaMask => return (antennaMask (← AntennaMask.parseBody body), 4)
  | .regularization => return (regularization (← Regularization.parseBody body), 4)
  | .spectrumSharing => return (spectrumSharing (← Technology.parseBody body), 4)
  | .beamGroup => do
    let (g, taken) ← BeamGroup.parseBody body
    return (beamGroup g, blockLength taken)
  | .weightBundles => do
    let (b, taken) ← WeightBundles.parse body length weights
    return (weightBundles b, taken)

/-- Read the extension at the start of some data; the number of weights in a vector is known or
not. -/
def decode (data : Bytes) (weights : Option UInt16) : Except Error Decoded := do
  let opening ← Opening.parse data
  require .extension opening.length data
  let body :=
    if opening.kind = .weightBundles then data
    else (data.take opening.length).drop opening.headerLength
  let (extension, consumed) ← parseBody opening.kind body opening.length weights
  return ⟨extension, opening.more, opening.length, consumed⟩

end Extension

end OpenFronthaul
