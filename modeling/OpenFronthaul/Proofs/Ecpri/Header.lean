import OpenFronthaul.Ecpri.Header
import OpenFronthaul.Proofs.Ecpri.EaxcId
import OpenFronthaul.Proofs.Wire.Bytes

/-!
# Headers of frames are read as they are written

A header with the size of its payload is read back with that size, in front of a payload that is
all there (`Ecpri.parse_setPayloadSize`).  So a packet tells of the flow that it was made for what
the fields of the layout keep (`Ecpri.Framer.parse_frame`).
-/

namespace OpenFronthaul

namespace Ecpri

variable {framer : Framer} {carrier antenna sequence : UInt8} {header payload : Bytes}

/-- Whether a header takes the size of a payload depends on the size alone. -/
lemma exists_setPayloadSize_iff {size : ℕ} :
    (∃ header, setPayloadSize (framer.header carrier antenna sequence) size = .ok header) ↔
      size + 4 ≤ 65535 := by
  have hlong : ¬(framer.header carrier antenna sequence).length < commonLength := by
    simp [Framer.header, commonLength, Bytes.length_ofNat]
  constructor
  · rintro ⟨header, h⟩
    rw [setPayloadSize, guard_eq_ok, guard_eq_ok] at h
    exact Nat.le_of_not_lt h.2.1
  · intro hsize
    exact ⟨_, guard_eq_ok.mpr ⟨hlong, guard_eq_ok.mpr ⟨Nat.not_lt_of_le hsize, rfl⟩⟩⟩

/-- A header is read as it was written, in front of its payload. -/
theorem parse_setPayloadSize
    (h : setPayloadSize (framer.header carrier antenna sequence) payload.length = .ok header) :
    header.length = headerLength ∧ framer.parse (header ++ payload) = .ok
      ({ revision := Ecpri.revision, concatenated := false, type := .control
         payloadSize := payload.length + 4
         id := framer.layout.compose ⟨framer.unit, framer.bandSector, carrier, antenna⟩
         sequence, lastFragment := true, fragment := 0 },
        framer.layout.decompose
          (framer.layout.compose ⟨framer.unit, framer.bandSector, carrier, antenna⟩)) := by
  have hcounted : headerLength - commonLength = 4 := rfl
  rw [setPayloadSize, if_neg (by simp [Framer.header, commonLength])] at h
  dsimp only at h
  rw [guard_eq_ok, pure_eq_ok, hcounted] at h
  obtain ⟨hsize, rfl⟩ := h
  rw [Framer.header]
  generalize framer.layout.compose ⟨framer.unit, framer.bandSector, carrier, antenna⟩ = id
  have hpayload : Bytes.toNat (Bytes.ofNat 2 (payload.length + 4)) = payload.length + 4 := by
    rw [Bytes.toNat_ofNat, Nat.mod_eq_of_lt (by omega)]
  have hid : UInt16.ofNat (Bytes.toNat (Bytes.ofNat 2 id.toNat)) = id := by
    rw [Bytes.toNat_ofNat, ofNat_toNat_mod]
  simp only [Bytes.ofNat] at hpayload hid ⊢
  refine ⟨rfl, ?_⟩
  simp only [List.cons_append, List.nil_append, List.take_succ_cons, List.take_zero,
    List.drop_succ_cons, commonLength, List.drop_zero, Framer.parse, hpayload, hid]
  rw [if_neg (by decide), if_neg (by simp)]
  rfl

/-! ## Packets of a flow -/

namespace Framer

variable {message packet : Bytes}

/-- The antenna-carrier id in the packets of a flow. -/
def wireId (framer : Framer) (carrier antenna : UInt8) : UInt16 :=
  framer.layout.compose ⟨framer.unit, framer.bandSector, carrier, antenna⟩

/-- The packet of a flow with a message. -/
def frame (framer : Framer) (carrier antenna sequence : UInt8) (message : Bytes) :
    Except LinkError Bytes := do
  let header ← setPayloadSize (framer.header carrier antenna sequence) message.length
  return header ++ message

lemma exists_frame (framer : Framer) (carrier antenna sequence : UInt8) (message : Bytes)
    (h : message.length + 4 ≤ 65535) :
    ∃ packet, framer.frame carrier antenna sequence message = .ok packet := by
  obtain ⟨header, hheader⟩ := exists_setPayloadSize_iff.mpr h
  exact ⟨header ++ message, bind_eq_ok.mpr ⟨header, hheader, rfl⟩⟩

/-- A packet has its message behind its header, and is read with the bits of its flow that the
layout keeps. -/
lemma parse_frame (hlayout : framer.layout.totalBits ≤ 16)
    (h : framer.frame carrier antenna sequence message = .ok packet) :
    packet.drop headerLength = message ∧ ∃ header id, framer.parse packet = .ok (header, id) ∧
      id.carrier = EaxcLayout.keep carrier framer.layout.carrierBits ∧
      id.antenna = EaxcLayout.keep antenna framer.layout.antennaBits := by
  obtain ⟨header, hheader, h⟩ := bind_eq_ok.mp h
  obtain rfl := pure_eq_ok.mp h
  obtain ⟨hlength, hparse⟩ := parse_setPayloadSize hheader
  rw [EaxcLayout.decompose_compose hlayout] at hparse
  exact ⟨List.drop_left' hlength, _, _, hparse, rfl, rfl⟩

end Framer

end Ecpri

end OpenFronthaul
