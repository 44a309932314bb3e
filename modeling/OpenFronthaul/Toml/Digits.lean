import OpenFronthaul.Toml.Scanner

/-!
# Digits

Numbers are written in digits of a base, which is at most sixteen.  Where their count is not fixed,
there may be single underscores between them.
-/

namespace OpenFronthaul.Toml

open Scanner

/-- The value of a hexadecimal digit. -/
def hexDigit? (c : Char) : Option Nat :=
  if c.isDigit then some (c.toNat - '0'.toNat)
  else if 'a' ≤ c && c ≤ 'f' then some (c.toNat - 'a'.toNat + 10)
  else if 'A' ≤ c && c ≤ 'F' then some (c.toNat - 'A'.toNat + 10)
  else none

/-- Whether a character is a digit of a base. -/
def isDigitOf (base : Nat) (c : Char) : Bool :=
  (hexDigit? c).any (· < base)

/-- The number that digits of a base denote, most significant first. -/
def ofDigits (base : Nat) (digits : List Char) : Nat :=
  digits.foldl (fun n c => n * base + (hexDigit? c).getD 0) 0

/-- Digits of a base, with single underscores between digits. -/
def digits (base : Nat) : Scanner (List Char) := do
  let first ← satisfy (isDigitOf base)
  let others ← many (satisfy (isDigitOf base) <|> do exactly '_'; satisfy (isDigitOf base))
  return first :: others

/-- A number in exactly the given count of digits of a base. -/
def fixedDigits (base count : Nat) : Scanner Nat := fun text =>
  let digits := text.take count
  if digits.length = count ∧ digits.all (isDigitOf base) then
    some (ofDigits base digits, text.drop count)
  else none

/-- The digits of a decimal number, where a zero in front stands alone. -/
def wholeDigits : Scanner (List Char) :=
  (do exactly '0'; return ['0']) <|> digits 10

/-- A sign, if any; the result tells whether the number is negative. -/
def sign : Scanner Bool :=
  (do exactly '-'; return true) <|> (do exactly '+'; return false) <|> pure false

/-- A magnitude with its sign. -/
def signedBy (negative : Bool) (magnitude : Nat) : Int :=
  if negative then -magnitude else magnitude

end OpenFronthaul.Toml
