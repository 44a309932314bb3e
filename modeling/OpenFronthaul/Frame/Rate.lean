/-!
# Rates

The share of slots that carry a direction is a quotient of two counts.  It is shown as the nearest
single-precision number (24 significant bits, a tie to the even one), with six decimal places.
-/

namespace OpenFronthaul

-- Powers are those of the core library, whatever else is imported.
attribute [local instance (high)] instPowNat

/-- The whole number nearest to a quotient; a tie goes to the even one. -/
def roundDiv (num den : Nat) : Nat :=
  let q := num / den
  let twice := 2 * (num % den)
  if twice < den then q
  else if den < twice then q + 1
  else if q % 2 = 0 then q else q + 1

/-- A share of a whole that is not zero. -/
structure Rate where
  /-- The counted part. -/
  part : Nat
  /-- What it is a part of. -/
  whole : Nat
deriving DecidableEq

namespace Rate

/-- The power of two by which a rate is scaled so that its whole part has 24 bits. -/
def scale (rate : Rate) : Nat :=
  let estimate := 23 + rate.whole.log2 - rate.part.log2
  if rate.part * 2 ^ estimate < 2 ^ (23 : Nat) * rate.whole then estimate + 1 else estimate

/-- The nearest single-precision number in millionths, rounded once more. -/
def millionths (rate : Rate) : Nat :=
  let mantissa := roundDiv (rate.part * 2 ^ rate.scale) rate.whole
  roundDiv (mantissa * 1000000) (2 ^ rate.scale)

/-- A number with zeros in front up to the given count of digits. -/
def padded (digits n : Nat) : String :=
  let text := Nat.toDigits 10 n
  String.ofList (List.replicate (digits - text.length) '0' ++ text)

/-- The form of a rate in reports. -/
def text (rate : Rate) : String :=
  toString (rate.millionths / 1000000) ++ "." ++ padded 6 (rate.millionths % 1000000)

end Rate

end OpenFronthaul
