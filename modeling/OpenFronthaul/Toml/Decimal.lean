import OpenFronthaul.Toml.Digits

/-!
# Decimal numbers

A decimal number has a sign, digits, and a power of ten.  Its range is that of binary numbers of
fifty-three bits below `2 ^ 1024`, to which it is rounded: from half way between the largest of them
and `2 ^ 1024` on, the nearest value is infinite.  `Decimal.exceeds_iff` says that the shortcuts of
the test, which spare it large powers of ten, do not change its answer.
-/

namespace OpenFronthaul.Toml

-- Powers are those of the core library, whatever else is imported.
attribute [local instance (high)] instPowNat

open Scanner

/-- The number `coefficient * 10 ^ power`, or its opposite. -/
structure Decimal where
  /-- Whether it has a minus sign. -/
  negative : Bool
  /-- All its digits, read as one number. -/
  coefficient : Nat
  /-- The power of ten by which the digits are to be multiplied. -/
  power : Int

namespace Decimal

/-- The least magnitude whose nearest value is infinite.  It is as near to the largest finite value
as to `2 ^ 1024`, and a tie goes to the even neighbour, which is the latter. -/
def limit : Nat := 2 ^ (1024 : Nat) - 2 ^ (970 : Nat)

/-- Whether the magnitude is beyond the finite values. -/
def exceeds (d : Decimal) : Bool :=
  if 309 ≤ d.power then d.coefficient ≠ 0
  else if d.coefficient.log2 < (-d.power).toNat then false
  else limit * 10 ^ (-d.power).toNat ≤ d.coefficient * 10 ^ d.power.toNat

theorem limit_pos : 0 < limit := by
  decide +kernel

theorem limit_le_pow {n : Nat} (h : 309 ≤ n) : limit ≤ 10 ^ n := by
  induction h with
  | refl => decide +kernel
  | step _ ih => exact Nat.le_trans ih (Nat.pow_le_pow_right (by decide) (Nat.le_succ _))

theorem exceeds_iff (d : Decimal) :
    d.exceeds = true ↔ limit * 10 ^ (-d.power).toNat ≤ d.coefficient * 10 ^ d.power.toNat := by
  rw [exceeds]
  split
  · next large =>
    have none_below : (-d.power).toNat = 0 := by omega
    rw [none_below, Nat.pow_zero, Nat.mul_one, decide_eq_true_eq]
    constructor
    · intro nonzero
      exact Nat.le_trans (limit_le_pow (by omega))
        (Nat.le_mul_of_pos_left _ (Nat.pos_of_ne_zero nonzero))
    · intro le zero
      rw [zero, Nat.zero_mul] at le
      exact Nat.not_lt.mpr le limit_pos
  · split
    · next small =>
      have none_above : d.power.toNat = 0 := by omega
      have below : d.coefficient < 10 ^ (-d.power).toNat :=
        Nat.lt_of_lt_of_le Nat.lt_log2_self
          (Nat.le_trans (Nat.pow_le_pow_right (by decide) small)
            (Nat.pow_le_pow_left (by decide) _))
      have above := Nat.le_mul_of_pos_left (10 ^ (-d.power).toNat) limit_pos
      rw [none_above, Nat.pow_zero, Nat.mul_one]
      simp only [Bool.false_eq_true, false_iff, Nat.not_le]
      exact Nat.lt_of_lt_of_le below above
    · exact decide_eq_true_iff

/-- The digits of a fraction. -/
def scanFraction : Scanner (List Char) := do
  exactly '.'
  digits 10

/-- The power of ten of an exponent. -/
def scanExponent : Scanner Int := do
  let _ ← satisfy fun c => c = 'e' || c = 'E'
  let negative ← sign
  return signedBy negative (ofDigits 10 (← digits 10))

/-- A number with a fraction, an exponent or both.  One whose nearest value is the positive infinity
is refused; the negative infinity stands for all that are below the finite values. -/
def scan : Scanner Decimal := do
  let negative ← sign
  let whole ← wholeDigits
  let (fraction, exponent) ←
    (do return ([], ← scanExponent))
    <|> (do
      let fraction ← scanFraction
      return (fraction, ← scanExponent <|> pure 0))
  let number : Decimal :=
    { negative, coefficient := ofDigits 10 (whole ++ fraction), power := exponent - fraction.length }
  if number.exceeds && !negative then failure
  return number

end Decimal

end OpenFronthaul.Toml
