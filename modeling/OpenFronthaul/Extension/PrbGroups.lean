import OpenFronthaul.Extension.Block

/-!
# Groups of resource blocks

A section may use only some groups of its resource blocks, and only some symbols.  The groups have
one of six sizes and are chosen by a mask of 28 bits, the lowest bit for the first group.
-/

namespace OpenFronthaul

/-- A choice of groups of resource blocks and of symbols. -/
structure PrbGroups where
  /-- Resource blocks in a group. -/
  size : UInt8 := 0
  /-- One bit for each group. -/
  groupMask : UInt32 := 0
  /-- One bit for each symbol. -/
  symbolMask : UInt16 := 0
deriving DecidableEq

namespace PrbGroups

/-- The sizes of a group, in the order of their wire codes from one on. -/
def sizes : List Nat := [1, 2, 3, 4, 8, 16]

/-- The wire code of a size. -/
def codeOf (size : Nat) : Except Error Nat :=
  match sizes.idxOf? size with
  | some index => pure (index + 1)
  | none => throw (.groupSize size)

/-- The size of a wire code. -/
def sizeOf (code : Nat) : Except Error Nat :=
  match code with
  | 0 => throw (.unknownGroupSize 0)
  | index + 1 =>
    match sizes[index]? with
    | some size => pure size
    | none => throw (.unknownGroupSize code)

/-- Whether the group of a resource block, counted from the first block of the section, is
chosen. -/
def selects (g : PrbGroups) (block : Nat) : Bool :=
  let group := block / max g.size.toNat 1
  group < 28 && g.groupMask.toNat.testBit group

/-- The chosen resource blocks of a section. -/
def allocated (g : PrbGroups) (start count : UInt16) : List UInt16 :=
  ((List.range count.toNat).filter g.selects).map fun block => start + UInt16.ofNat block

/-- The contents of the extension. -/
def encodeBody (g : PrbGroups) : Except Error Bytes := do
  let code ← codeOf g.size.toNat
  if 0xfffffff < g.groupMask.toNat then throw (.tooWide .groupMask g.groupMask.toNat 28)
  if 0x3fff < g.symbolMask.toNat then throw (.tooWide .symbolMask g.symbolMask.toNat 14)
  return Bytes.ofNat 4 (code * 0x10000000 + g.groupMask.toNat)
    ++ Bytes.ofNat 2 g.symbolMask.toNat

/-- Read the contents of the extension. -/
def parseBody (body : Bytes) : Except Error PrbGroups := do
  Extension.require (.body .prbGroups) 6 body
  let word := Extension.numberAt body 0 4
  let size ← sizeOf (word / 0x10000000 % 8)
  return ⟨UInt8.ofNat size, UInt32.ofNat (word % 0x10000000),
    UInt16.ofNat (Extension.numberAt body 4 2 % 0x4000)⟩

end PrbGroups

end OpenFronthaul
