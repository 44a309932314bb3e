import OpenFronthaul.Bits
import OpenFronthaul.BitField
import OpenFronthaul.Error

/-!
# Extension blocks

Every extension is a block that starts with a type byte, whose top bit says whether another
extension follows, and a length in words of four bytes; zeros fill the block up to a whole number of
words.  `block` makes a block from the contents of a short extension, and `Opening.parse` reads the
start of any block.
-/

namespace OpenFronthaul.Extension

/-- Bytes in a word of an extension. -/
def wordLength : Nat := 4

/-- The first byte of a block. -/
def typeByte (kind : ExtensionKind) (more : Bool) : UInt8 :=
  UInt8.ofNat (more.toNat * 128 + kind.code)

/-- The block of a short extension with the given contents.  Its length must be countable in one
byte. -/
def block (kind : ExtensionKind) (more : Bool) (contents : Bytes) : Except Error Bytes :=
  let length := alignUp (2 + contents.length) wordLength
  let words := length / wordLength
  if 255 < words then throw (.extensionTooLong kind length)
  else
    pure (typeByte kind more :: UInt8.ofNat words :: contents
      ++ Bytes.zeros (length - (2 + contents.length)))

/-- Whole words for a short extension with contents of the given length. -/
def blockLength (contents : Nat) : Nat :=
  alignUp (2 + contents) wordLength

/-- What the start of a block says. -/
structure Opening where
  /-- Another extension follows. -/
  more : Bool
  /-- The kind of the extension. -/
  kind : ExtensionKind
  /-- Bytes of the block. -/
  length : Nat
  /-- Bytes of the start itself. -/
  headerLength : Nat
deriving DecidableEq

/-- Read the start of a block. -/
def Opening.parse (data : Bytes) : Except Error Opening :=
  match data with
  | [] => throw (.truncated .extension)
  | first :: rest =>
    match ExtensionKind.ofCode? (first.toNat % 128) with
    | none => throw (.unknownExtension (first.toNat % 128))
    | some kind =>
      if rest.length < kind.lengthFieldSize then throw (.truncated .extensionLength)
      else
        let words := Bytes.toNat (rest.take kind.lengthFieldSize)
        if words = 0 then throw (.zeroLength kind)
        else
          pure
            { more := 128 ≤ first.toNat
              kind
              length := words * wordLength
              headerLength := 1 + kind.lengthFieldSize }

/-- Refuse data that is too short for a stretch of a message. -/
def require (piece : Piece) (needed : Nat) (data : Bytes) : Except Error Unit :=
  if data.length < needed then throw (.tooShort piece needed data.length) else pure ()

/-- Refuse a beam that does not fit its fifteen bits. -/
def checkBeam (beam : UInt16) : Except Error Unit :=
  if 0x7fff < beam.toNat then throw (.tooWide .beamId beam.toNat 15) else pure ()

/-- Beams as they are written, two bytes each. -/
def encodeBeams (beams : List UInt16) : Except Error Bytes := do
  beams.forM checkBeam
  return beams.flatMap fun beam => Bytes.ofNat 2 beam.toNat

/-- The beam in the first two bytes of some data; its top bit is left out. -/
def beamAt (data : Bytes) : UInt16 :=
  UInt16.ofNat (Bytes.toNat (data.take 2) % 0x8000)

/-- The beams in some data, two bytes each. -/
def beamsAt : Nat → Bytes → List UInt16
  | 0, _ => []
  | count + 1, data => beamAt data :: beamsAt count (data.drop 2)

/-- The number in the given bytes of some data. -/
def numberAt (data : Bytes) (start count : Nat) : Nat :=
  Bytes.toNat ((data.drop start).take count)

/-- A byte of some data; zero behind its end. -/
def byteAt (data : Bytes) (index : Nat) : Nat :=
  (data.getD index 0).toNat

end OpenFronthaul.Extension
