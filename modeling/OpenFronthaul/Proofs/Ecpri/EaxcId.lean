import OpenFronthaul.Ecpri.EaxcId
import OpenFronthaul.Proofs.Steps
import Mathlib.Tactic

/-!
# Antenna-carrier ids are read as they are put together

The parts of an antenna-carrier id stand side by side in a wire id, each in a field of its own.  So
each is found again by its place, up to the bits that the width of its field leaves out
(`EaxcLayout.decompose_compose`).  A wire id that uses no bit above all fields is put together again
from its parts, unless one of them is too large for the byte that it is kept in
(`EaxcLayout.compose_decompose_iff`); that takes a field of more than eight bits.
-/

namespace OpenFronthaul

/-! ## Fields -/

/-- The parts of an antenna-carrier id, the most significant one first. -/
inductive EaxcPart where
  /-- Processing unit on the distributed side. -/
  | unit
  /-- Band sector. -/
  | bandSector
  /-- Component carrier. -/
  | carrier
  /-- Antenna of the radio unit. -/
  | antenna

namespace EaxcId

/-- A part of an id. -/
def get (id : EaxcId) : EaxcPart → UInt8
  | .unit => id.unit
  | .bandSector => id.bandSector
  | .carrier => id.carrier
  | .antenna => id.antenna

lemma eq_of_get_eq {id other : EaxcId} (h : ∀ part, id.get part = other.get part) : id = other := by
  obtain ⟨unit, bandSector, carrier, antenna⟩ := id
  obtain ⟨unit', bandSector', carrier', antenna'⟩ := other
  rw [EaxcId.mk.injEq]
  exact ⟨h .unit, h .bandSector, h .carrier, h .antenna⟩

end EaxcId

namespace EaxcLayout

variable {layout : EaxcLayout} {value n : ℕ} {part width : UInt8} {raw : UInt16}

/-- The bits of the field of a part. -/
def bits (layout : EaxcLayout) : EaxcPart → UInt8
  | .unit => layout.unitBits
  | .bandSector => layout.bandSectorBits
  | .carrier => layout.carrierBits
  | .antenna => layout.antennaBits

/-- The place of the lowest bit of the field of a part. -/
def shift (layout : EaxcLayout) : EaxcPart → ℕ
  | .unit => layout.antennaBits.toNat + layout.carrierBits.toNat + layout.bandSectorBits.toNat
  | .bandSector => layout.antennaBits.toNat + layout.carrierBits.toNat
  | .carrier => layout.antennaBits.toNat
  | .antenna => 0

/-- The number in the field of a part, of any size. -/
def field (layout : EaxcLayout) (raw : UInt16) (p : EaxcPart) : ℕ :=
  raw.toNat / 2 ^ layout.shift p % 2 ^ (layout.bits p).toNat

lemma field_lt (layout : EaxcLayout) (raw : UInt16) (p : EaxcPart) :
    layout.field raw p < 2 ^ (layout.bits p).toNat :=
  Nat.mod_lt _ (Nat.two_pow_pos _)

/-- Parts are bytes, whatever the width of their fields is. -/
lemma get_decompose (layout : EaxcLayout) (raw : UInt16) (p : EaxcPart) :
    (layout.decompose raw).get p = UInt8.ofNat (layout.field raw p) := by
  cases p <;> rfl

lemma validate_eq_ok : layout.validate = .ok () ↔ layout.totalBits ≤ 16 := by
  rw [validate, guard_eq_ok, not_lt, pure_eq_ok]
  exact and_iff_left rfl

/-! ## From parts to a wire id and back -/

/-- What a field of some width keeps of a part. -/
def keep (part width : UInt8) : UInt8 :=
  UInt8.ofNat (part.toNat % 2 ^ width.toNat)

lemma keep_of_lt (h : part.toNat < 2 ^ width.toNat) : keep part width = part := by
  rw [keep, Nat.mod_eq_of_lt h, UInt8.ofNat_toNat]

lemma keep_le (part width : UInt8) : (keep part width).toNat ≤ part.toNat := by
  rw [keep, UInt8.toNat_ofNat']
  exact (Nat.mod_le _ _).trans (Nat.mod_le _ _)

lemma append_lt (h : value < 2 ^ n) (part width : UInt8) :
    append value part width < 2 ^ (n + width.toNat) := by
  have hpart : part.toNat % 2 ^ width.toNat < 2 ^ width.toNat := Nat.mod_lt _ (Nat.two_pow_pos _)
  calc append value part width < (value + 1) * 2 ^ width.toNat := by
        rw [append, Nat.add_mul, Nat.one_mul]
        omega
    _ ≤ 2 ^ n * 2 ^ width.toNat := Nat.mul_le_mul_right _ h
    _ = 2 ^ (n + width.toNat) := (pow_add ..).symm

lemma append_div (value : ℕ) (part width : UInt8) :
    append value part width / 2 ^ width.toNat = value := by
  have hpart : part.toNat % 2 ^ width.toNat < 2 ^ width.toNat := Nat.mod_lt _ (Nat.two_pow_pos _)
  rw [append, Nat.mul_comm, Nat.mul_add_div (Nat.two_pow_pos _), Nat.div_eq_of_lt hpart,
    Nat.add_zero]

lemma append_mod (value : ℕ) (part width : UInt8) :
    append value part width % 2 ^ width.toNat = part.toNat % 2 ^ width.toNat := by
  rw [append, Nat.mul_comm, Nat.mul_add_mod, Nat.mod_mod]

/-- The number that the parts of an id make up side by side. -/
def joined (layout : EaxcLayout) (id : EaxcId) : ℕ :=
  append (append (append (append 0 id.unit layout.unitBits) id.bandSector layout.bandSectorBits)
    id.carrier layout.carrierBits) id.antenna layout.antennaBits

lemma joined_lt (layout : EaxcLayout) (id : EaxcId) : layout.joined id < 2 ^ layout.totalBits := by
  have hunit := append_lt (Nat.zero_lt_one.trans_eq (pow_zero 2).symm) id.unit layout.unitBits
  have hlt := append_lt (append_lt (append_lt hunit id.bandSector layout.bandSectorBits) id.carrier
    layout.carrierBits) id.antenna layout.antennaBits
  rwa [Nat.zero_add] at hlt

lemma toNat_compose (h : layout.totalBits ≤ 16) (id : EaxcId) :
    (layout.compose id).toNat = layout.joined id :=
  Nat.mod_eq_of_lt ((layout.joined_lt id).trans_le (Nat.pow_le_pow_right (by decide) h))

/-- The field of a part has the bits of the part that it is wide enough for. -/
lemma field_compose (h : layout.totalBits ≤ 16) (id : EaxcId) (p : EaxcPart) :
    layout.field (layout.compose id) p = (id.get p).toNat % 2 ^ (layout.bits p).toNat := by
  rw [field, toNat_compose h, joined]
  -- a part is behind the shifts of all parts that stand after it
  cases p <;> simp only [shift, bits, EaxcId.get, pow_add, pow_zero, Nat.div_one,
    ← Nat.div_div_eq_div_mul, append_div, append_mod]

/-- Of every part the bits of its width come back. -/
theorem decompose_compose (h : layout.totalBits ≤ 16) (id : EaxcId) :
    layout.decompose (layout.compose id) =
      { unit := keep id.unit layout.unitBits
        bandSector := keep id.bandSector layout.bandSectorBits
        carrier := keep id.carrier layout.carrierBits
        antenna := keep id.antenna layout.antennaBits } := by
  refine EaxcId.eq_of_get_eq fun p => ?_
  rw [get_decompose, field_compose h]
  cases p <;> rfl

/-! ## From a wire id to parts and back -/

/-- A part that fits a byte goes behind what stands above its field. -/
lemma append_get_decompose {p : EaxcPart} (h : layout.field raw p < 256) :
    append (raw.toNat / 2 ^ (layout.shift p + (layout.bits p).toNat))
      ((layout.decompose raw).get p) (layout.bits p) = raw.toNat / 2 ^ layout.shift p := by
  rw [get_decompose, append, UInt8.toNat_ofNat', Nat.mod_eq_of_lt (a := layout.field raw p) h,
    Nat.mod_eq_of_lt (layout.field_lt raw p), pow_add, ← Nat.div_div_eq_div_mul, field,
    Nat.div_add_mod']

/-- A wire id within the fields is put together again from its parts exactly when each of them fits
a byte. -/
lemma compose_decompose_iff (h : layout.totalBits ≤ 16) (hraw : raw.toNat < 2 ^ layout.totalBits) :
    layout.compose (layout.decompose raw) = raw ↔ ∀ p, layout.field raw p < 256 := by
  constructor
  · intro heq p
    rw [← heq, field_compose h]
    exact (Nat.mod_le _ _).trans_lt (UInt8.toNat_lt _)
  · intro hbytes
    have htop : raw.toNat / 2 ^ (layout.shift .unit + (layout.bits .unit).toNat) = 0 := by
      refine Nat.div_eq_of_lt (hraw.trans_eq (congrArg (2 ^ ·) ?_))
      simp only [shift, bits, totalBits]
      omega
    -- from the highest part on, each one goes behind what stands above its field
    have hunit := append_get_decompose (hbytes .unit)
    have hsector := append_get_decompose (hbytes .bandSector)
    have hcarrier := append_get_decompose (hbytes .carrier)
    have hantenna := append_get_decompose (hbytes .antenna)
    rw [htop] at hunit
    rw [show layout.shift .bandSector + (layout.bits .bandSector).toNat = layout.shift .unit
      from rfl, ← hunit] at hsector
    rw [show layout.shift .carrier + (layout.bits .carrier).toNat = layout.shift .bandSector
      from rfl, ← hsector] at hcarrier
    rw [show layout.shift .antenna + (layout.bits .antenna).toNat = layout.shift .carrier from
      Nat.zero_add _, ← hcarrier] at hantenna
    refine UInt16.toNat_inj.mp ((toNat_compose h _).trans (hantenna.trans ?_))
    exact Nat.div_one _

/-- All wire ids within the fields are put together again exactly when no field is wider than a
byte. -/
lemma compose_decompose_forall_iff (h : layout.totalBits ≤ 16) :
    (∀ raw : UInt16, raw.toNat < 2 ^ layout.totalBits →
      layout.compose (layout.decompose raw) = raw) ↔ ∀ p, layout.bits p ≤ 8 := by
  constructor
  · intro hall p
    by_contra hwide
    rw [UInt8.not_le, UInt8.lt_iff_toNat_lt] at hwide
    change 8 < (layout.bits p).toNat at hwide
    have hplace : layout.shift p + (layout.bits p).toNat ≤ layout.totalBits := by
      cases p <;> simp only [shift, bits, totalBits] <;> omega
    -- the number 256 in the wide field is too large for the part
    have hlt : 2 ^ (layout.shift p + 8) < 2 ^ layout.totalBits :=
      Nat.pow_lt_pow_right (by decide) (by omega)
    have hraw : (UInt16.ofNat (2 ^ (layout.shift p + 8))).toNat = 2 ^ (layout.shift p + 8) := by
      rw [UInt16.toNat_ofNat']
      exact Nat.mod_eq_of_lt (hlt.trans_le (Nat.pow_le_pow_right (by decide) h))
    have hfits := (compose_decompose_iff h (hraw.trans_lt hlt)).mp (hall _ (hraw.trans_lt hlt)) p
    rw [field, hraw, pow_add, Nat.mul_div_cancel_left _ (Nat.two_pow_pos _),
      Nat.mod_eq_of_lt (Nat.pow_lt_pow_right (by decide) hwide)] at hfits
    exact absurd hfits (by decide)
  · intro hnarrow raw hraw
    refine (compose_decompose_iff h hraw).mpr fun p => (layout.field_lt raw p).trans_le ?_
    exact Nat.pow_le_pow_right (n := 2) (by decide) (UInt8.le_iff_toNat_le.mp (hnarrow p))

/-! ## Usable layouts -/

/-- What the wire ids of a layout stand for. -/
structure Inverts (layout : EaxcLayout) : Prop where
  /-- An id whose parts fit their fields is read from its wire id. -/
  decompose_compose : ∀ id : EaxcId, (∀ p, (id.get p).toNat < 2 ^ (layout.bits p).toNat) →
    layout.decompose (layout.compose id) = id
  /-- No wire id uses a bit above the fields. -/
  compose_lt : ∀ id : EaxcId, (layout.compose id).toNat < 2 ^ layout.totalBits
  /-- A wire id within the fields is put together again from its parts exactly when the number in
  each field fits a byte. -/
  compose_decompose_iff : ∀ raw : UInt16, raw.toNat < 2 ^ layout.totalBits →
    (layout.compose (layout.decompose raw) = raw ↔ ∀ p, layout.field raw p < 256)
  /-- So it is for all of them exactly when no field is wider than a byte. -/
  compose_decompose_forall_iff :
    (∀ raw : UInt16, raw.toNat < 2 ^ layout.totalBits →
      layout.compose (layout.decompose raw) = raw) ↔ ∀ p, layout.bits p ≤ 8

/-- A usable layout is inverted by its parts, up to numbers that no part can be. -/
theorem inverts_of_validate (h : layout.validate = .ok ()) : layout.Inverts := by
  have htotal := validate_eq_ok.mp h
  refine ⟨fun id hid => EaxcId.eq_of_get_eq fun p => ?_, fun id => ?_,
    fun raw => compose_decompose_iff htotal, compose_decompose_forall_iff htotal⟩
  · rw [get_decompose, field_compose htotal, Nat.mod_eq_of_lt (hid p), UInt8.ofNat_toNat]
  · exact (toNat_compose htotal id).trans_lt (layout.joined_lt id)

/-- With unequal fields all ids and all wire ids correspond. -/
theorem inverts_of_validate_unequal :
    EaxcLayout.validate ⟨2, 6, 3, 5⟩ = .ok () ∧ EaxcLayout.Inverts ⟨2, 6, 3, 5⟩ ∧
      EaxcLayout.decompose ⟨2, 6, 3, 5⟩ (EaxcLayout.compose ⟨2, 6, 3, 5⟩ ⟨3, 33, 5, 17⟩)
        = ⟨3, 33, 5, 17⟩ :=
  have h : EaxcLayout.validate ⟨2, 6, 3, 5⟩ = .ok () := rfl
  ⟨h, inverts_of_validate h, (inverts_of_validate h).decompose_compose _ fun p => by
    cases p <;> decide⟩

/-- A field of sixteen bits is usable, but the numbers from 256 on are lost in it. -/
theorem wideField_loses :
    EaxcLayout.validate ⟨16, 0, 0, 0⟩ = .ok () ∧
      (256 : UInt16).toNat < 2 ^ EaxcLayout.totalBits ⟨16, 0, 0, 0⟩ ∧
      EaxcLayout.compose ⟨16, 0, 0, 0⟩ (EaxcLayout.decompose ⟨16, 0, 0, 0⟩ 256) = 0 := by
  decide +kernel

end EaxcLayout

end OpenFronthaul
