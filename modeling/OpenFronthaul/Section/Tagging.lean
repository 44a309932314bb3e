import OpenFronthaul.Error

/-!
# Tagged section ids

Twelve bits name a section on the wire.  Where several numerologies share a flow, the high bits say
which one a section belongs to and the rest is its id (`tag`, `strip`).
-/

namespace OpenFronthaul.IdTagging

-- Powers are those of the core library, whatever else is imported.
attribute [local instance (high)] instPowNat

/-- The bits that are left for the id itself, one at least. -/
def baseBits : IdTagging → Nat
  | untagged => 12
  | highBits bits => 12 - min bits.toNat 11

/-- The largest id that can be tagged. -/
def maxId (tagging : IdTagging) : Nat :=
  2 ^ tagging.baseBits - 1

/-- A tag must have one to eleven bits and hold the numerology. -/
def checkTag (tagging : IdTagging) (mu : Numerology) : Except Error Unit :=
  match tagging with
  | untagged => pure ()
  | highBits bits =>
    if bits.toNat = 0 ∨ 11 < bits.toNat then throw (.tagWidth bits.toNat)
    else if 2 ^ bits.toNat ≤ mu.index then throw (.tagTooNarrow mu.index bits.toNat)
    else pure ()

/-- The wire id of a section. -/
def tag (tagging : IdTagging) (id : UInt16) (mu : Numerology) : Except Error Nat := do
  tagging.checkTag mu
  if tagging.maxId < id.toNat then throw (.idTooLarge id.toNat tagging.maxId tagging)
  match tagging with
  | untagged => return id.toNat
  | highBits _ => return mu.index * 2 ^ tagging.baseBits + id.toNat

/-- The id of a section with the given wire id; a tag is taken off whatever it says. -/
def strip (tagging : IdTagging) (wireId : Nat) : UInt16 :=
  match tagging with
  | untagged => UInt16.ofNat wireId
  | highBits _ => UInt16.ofNat (wireId % 2 ^ tagging.baseBits)

end OpenFronthaul.IdTagging
