import OpenFronthaul.Section.Store
import Mathlib.Tactic

/-!
# Rotation contexts

A slot goes by several numbers: the clock counts slots from its start, a scheduler counts them anew
every second, and on the wire they are counted within 256 frames.  Both periods are multiples of
four, so that the rotation context of a slot is the same whichever number it is taken from.
-/

namespace OpenFronthaul

lemma toNat_rotationContext (slot : ℕ) : (rotationContext slot).toNat = slot % 4 := by
  rw [rotationContext, rotationContexts, UInt8.toNat_ofNat']
  omega

lemma rotationContext_lt (slot : ℕ) : (rotationContext slot).toNat < rotationContexts := by
  rw [toNat_rotationContext]
  exact Nat.mod_lt slot (by decide)

lemma rotationContext_eq_iff {slot other : ℕ} :
    rotationContext slot = rotationContext other ↔ slot % 4 = other % 4 := by
  rw [← UInt8.toNat_inj, toNat_rotationContext, toNat_rotationContext]

/-- The wrapped number of a slot tells its rotation context. -/
lemma rotationContext_wrapSlot (mu : Numerology) (slot : ℤ) :
    rotationContext (mu.wrapSlot slot) = UInt8.ofNat (slot % 4).toNat := by
  have hmod : mu.wrapSlot slot % 4 = (slot % 4).toNat := by
    cases mu <;>
      simp only [Numerology.wrapSlot, Numerology.slotsPerSecond, Numerology.slotMicros,
        Numerology.index] <;>
      omega
  rw [rotationContext, rotationContexts, hmod]

/-- The slot counter starts again every second, but the contexts go on in turn. -/
lemma toNat_rotationContext_wrapSlot (mu : Numerology) (slot : ℕ) :
    (rotationContext (mu.wrapSlot slot)).toNat = slot % 4 := by
  rw [rotationContext_wrapSlot, UInt8.toNat_ofNat']
  omega

/-- The wire name of a slot stands for the number of the slot within 256 frames. -/
lemma slotIndex_slotTime (mu : Numerology) (slot : ℕ) :
    mu.slotIndex (mu.slotTime slot) = slot % (2560 * 2 ^ mu.index) := by
  cases mu <;>
    simp only [Numerology.slotIndex, Numerology.slotTime, Numerology.slotsPerFrame,
      Numerology.slotsPerSubframe, Numerology.index, subframesPerFrame, UInt8.toNat_ofNat'] <;>
    omega

/-- The wire name of a slot leads to the rotation context of the slot. -/
lemma rotationContext_slotTime (mu : Numerology) (slot : ℕ) :
    rotationContext (mu.slotIndex (mu.slotTime slot)) = rotationContext slot := by
  have hperiod : 4 ∣ 2560 * 2 ^ mu.index := dvd_mul_of_dvd_left (by decide) _
  rw [rotationContext_eq_iff, slotIndex_slotTime, Nat.mod_mod_of_dvd _ hperiod]

end OpenFronthaul
