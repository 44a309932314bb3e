import OpenFronthaul.Error

/-!
# Slot patterns

The fourteen symbols of a slot are described by a text of the letters `D`, `U` and `G`, upper or
lower case, with blanks around it.  From the symbols follows what kind of slot it is
(`SlotPattern.kind`).
-/

namespace OpenFronthaul

/-- What a symbol carries. -/
inductive SymbolUse where
  | dl
  | ul
  /-- Nothing, while the carrier turns around. -/
  | guard
  /-- Both directions, on paired spectrum. -/
  | fdd
deriving DecidableEq

/-- What a slot carries. -/
inductive SlotKind where
  /-- Nothing that is known. -/
  | unset
  /-- Downlink on every symbol. -/
  | dl
  /-- Uplink on every symbol. -/
  | ul
  /-- Downlink, guard and uplink symbols mixed. -/
  | special
  /-- Both directions, on paired spectrum. -/
  | fdd
deriving DecidableEq

/-- The kind of slot that carries one direction only. -/
def SlotKind.ofDirection : Direction → SlotKind
  | .ul => ul
  | .dl => dl

/-- The use of a symbol that carries one direction only. -/
def SymbolUse.ofDirection : Direction → SymbolUse
  | .ul => ul
  | .dl => dl

/-- The use that a letter stands for. -/
def SymbolUse.ofLetter? : Char → Option SymbolUse
  | 'D' => some dl
  | 'U' => some ul
  | 'G' => some guard
  | _ => none

/-- The use of each symbol of a slot. -/
abbrev SlotPattern := Vector SymbolUse 14

namespace SlotPattern

/-- Whether a character is blank, as the character database has it. -/
def isBlank (c : Char) : Bool :=
  let n := c.toNat
  (9 ≤ n && n ≤ 13) || n = 32 || n = 0x85 || n = 0xa0 || n = 0x1680
    || (0x2000 ≤ n && n ≤ 0x200a) || n = 0x2028 || n = 0x2029 || n = 0x202f || n = 0x205f
    || n = 0x3000

/-- A text without the blanks around it. -/
def trim (text : List Char) : List Char :=
  ((text.dropWhile isBlank).reverse.dropWhile isBlank).reverse

/-- Every symbol of the same use. -/
def uniform (use : SymbolUse) : SlotPattern :=
  Vector.replicate 14 use

/-- The uses that letters stand for; `pattern` is the text to be named in a report. -/
def readLetters (pattern : String) : List Char → Except Error (List SymbolUse)
  | [] => pure []
  | letter :: rest =>
    match SymbolUse.ofLetter? letter.toUpper with
    | some use => return use :: (← readLetters pattern rest)
    | none => throw (.patternSymbol letter.toUpper pattern)

/-- The pattern of a text. -/
def parse (text : String) : Except Error SlotPattern := do
  let letters := trim text.toList
  if letters.length = 14 then
    let uses ← readLetters text letters
    if h : uses.length = 14 then return ⟨uses.toArray, by simpa using h⟩
    else throw (.patternLength text letters.length)
  else throw (.patternLength text letters.length)

/-- The number of symbols of a use. -/
def count (pattern : SlotPattern) (use : SymbolUse) : Nat :=
  pattern.toList.count use

/-- The kind of a slot on unpaired spectrum. -/
def kind (pattern : SlotPattern) : SlotKind :=
  if pattern.count .ul = 0 ∧ pattern.count .guard = 0 then .dl
  else if pattern.count .dl = 0 ∧ pattern.count .guard = 0 then .ul
  else .special

end SlotPattern

end OpenFronthaul
