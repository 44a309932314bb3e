import OpenFronthaul.Emulation.RadioUnit
import OpenFronthaul.Proofs.Config.Valid
import OpenFronthaul.Proofs.Ecpri.Header
import OpenFronthaul.Proofs.Receiver.Recording

/-!
# Flows that are told apart

A packet names its flow in two fields of its antenna-carrier id, one for the carrier and one for the
antenna.  A configuration is accepted also when it has more carriers or antennas than these fields
have numbers; the first one too many is then taken for the first of all.  So the flows of a
configuration are told apart, by their packets, by their ids and by the buckets of the radio unit,
exactly when both fields are wide enough for it (`Config.tellsFlows_of_validate`).
-/

namespace OpenFronthaul

/-! ## Numbers that a field keeps -/

namespace EaxcLayout

variable {layout : EaxcLayout} {id other : EaxcId} {part bound width : UInt8}

lemma toNat_keep (part width : UInt8) : (keep part width).toNat = part.toNat % 2 ^ width.toNat :=
  Nat.mod_eq_of_lt ((Nat.mod_le _ _).trans_lt part.toNat_lt)

lemma keep_eq_iff : keep part width = part ↔ part.toNat < 2 ^ width.toNat := by
  refine ⟨fun h => ?_, keep_of_lt⟩
  rw [← h, toNat_keep]
  exact Nat.mod_lt _ (Nat.two_pow_pos _)

lemma keep_keep (part width : UInt8) : keep (keep part width) width = keep part width := by
  rw [keep_eq_iff, toNat_keep]
  exact Nat.mod_lt _ (Nat.two_pow_pos _)

/-- A field keeps all numbers below a bound exactly when it has as many of them. -/
lemma forall_keep_iff :
    (∀ part < bound, keep part width = part) ↔ bound.toNat ≤ 2 ^ width.toNat := by
  constructor
  · intro hall
    by_contra! hnarrow
    -- the first number that the field does not have is below the bound
    have hfirst : (UInt8.ofNat (2 ^ width.toNat)).toNat = 2 ^ width.toNat :=
      Nat.mod_eq_of_lt (hnarrow.trans bound.toNat_lt)
    have hkept := hall (UInt8.ofNat (2 ^ width.toNat))
      (UInt8.lt_iff_toNat_lt.mpr (hfirst.trans_lt hnarrow))
    rw [keep_eq_iff, hfirst] at hkept
    exact lt_irrefl _ hkept
  · intro hwide part hpart
    exact keep_of_lt ((UInt8.lt_iff_toNat_lt.mp hpart).trans_le hwide)

/-- It keeps them exactly when it tells them apart. -/
lemma keep_injective_iff :
    (∀ part < bound, ∀ other < bound, keep part width = keep other width → part = other) ↔
      bound.toNat ≤ 2 ^ width.toNat := by
  rw [← forall_keep_iff]
  constructor
  · intro hinjective part hpart
    have hle : keep part width ≤ part := UInt8.le_iff_toNat_le.mpr (keep_le part width)
    exact hinjective _ (UInt8.lt_of_le_of_lt hle hpart) part hpart (keep_keep part width)
  · intro hall part hpart other hother h
    rw [← hall part hpart, h, hall other hother]

/-- Two ids of one unit and band sector are one on the wire when the fields keep the same of
them. -/
lemma compose_eq_iff (h : layout.totalBits ≤ 16) (hunit : id.unit = other.unit)
    (hsector : id.bandSector = other.bandSector) :
    layout.compose id = layout.compose other ↔
      keep id.carrier layout.carrierBits = keep other.carrier layout.carrierBits ∧
        keep id.antenna layout.antennaBits = keep other.antenna layout.antennaBits := by
  constructor
  · intro heq
    have hparts := congrArg layout.decompose heq
    rw [decompose_compose h, decompose_compose h, EaxcId.mk.injEq] at hparts
    exact hparts.2.2
  · rintro ⟨hcarrier, hantenna⟩
    rw [← UInt8.toNat_inj, toNat_keep, toNat_keep] at hcarrier hantenna
    simp only [compose, append, hunit, hsector, hcarrier, hantenna]

end EaxcLayout

/-! ## Buckets of the radio unit -/

namespace RadioUnit

variable {plan : Plan} {unit : RadioUnit} {packet message : Bytes} {key : SectionKey}
  {carrier antenna sequence : UInt8}

/-- The bucket that a packet belongs to, if its header and that of its message are accepted. -/
def bucket? (plan : Plan) (packet : Bytes) : Option SectionKey :=
  match plan.framer.parse packet with
  | .error _ => none
  | .ok (_, id) =>
    let message := packet.drop Ecpri.headerLength
    Receiver.target? (context plan id message) message

/-- A packet whose message is accepted belongs to a bucket of the flow that the layout keeps. -/
lemma bucket?_frame (hlayout : plan.framer.layout.totalBits ≤ 16)
    (h : plan.framer.frame carrier antenna sequence message = .ok packet) :
    bucket? plan packet = match Receiver.acceptHeader message with
      | .error _ => none
      | .ok parsed => some ⟨parsed.direction,
          EaxcLayout.keep carrier plan.framer.layout.carrierBits,
          EaxcLayout.keep antenna plan.framer.layout.antennaBits,
          rotationContext (plan.config.mu.slotIndex parsed.header.slotTime)⟩ := by
  obtain ⟨hmessage, header, id, hparse, hcarrier, hantenna⟩ := Ecpri.Framer.parse_frame hlayout h
  rw [bucket?, hparse]
  dsimp only
  rw [hmessage, Receiver.target?, ← hcarrier, ← hantenna]
  rcases Receiver.acceptHeader message with e | parsed
  · rfl
  · rfl

/-- Some packet of one flow and some packet of another belong to one bucket of the radio unit. -/
def SharesBucket (plan : Plan) (carrier antenna carrier' antenna' : UInt8) : Prop :=
  ∃ sequence sequence' message message' packet packet' key,
    plan.framer.frame carrier antenna sequence message = .ok packet ∧
    plan.framer.frame carrier' antenna' sequence' message' = .ok packet' ∧
    bucket? plan packet = some key ∧ bucket? plan packet' = some key

/-- A message without a section that the radio unit reads the header of. -/
def shortMessage : Bytes :=
  [0x90, 0, 0, 0, 1, 1, 0, 0]

lemma acceptHeader_shortMessage :
    Receiver.acceptHeader shortMessage = .ok ⟨.dl, { iqWidth := 16 }, 1, .regular⟩ := by
  decide +kernel

lemma sharesBucket_iff (hlayout : plan.framer.layout.totalBits ≤ 16)
    {carrier antenna carrier' antenna' : UInt8} :
    SharesBucket plan carrier antenna carrier' antenna' ↔
      EaxcLayout.keep carrier plan.framer.layout.carrierBits =
          EaxcLayout.keep carrier' plan.framer.layout.carrierBits ∧
        EaxcLayout.keep antenna plan.framer.layout.antennaBits =
          EaxcLayout.keep antenna' plan.framer.layout.antennaBits := by
  constructor
  · rintro ⟨sequence, sequence', message, message', packet, packet', key, h, h', hkey, hkey'⟩
    rw [bucket?_frame hlayout h] at hkey
    rw [bucket?_frame hlayout h'] at hkey'
    rcases hparsed : Receiver.acceptHeader message with e | parsed
    · rw [hparsed] at hkey
      cases hkey
    rcases hparsed' : Receiver.acceptHeader message' with e | parsed'
    · rw [hparsed'] at hkey'
      cases hkey'
    rw [hparsed] at hkey
    rw [hparsed', ← hkey] at hkey'
    have heq := (SectionKey.mk.injEq ..).mp (Option.some.inj hkey')
    exact ⟨heq.2.1.symm, heq.2.2.1.symm⟩
  · rintro ⟨hcarrier, hantenna⟩
    have hshort : shortMessage.length + 4 ≤ 65535 := by simp [shortMessage]
    obtain ⟨packet, h⟩ := plan.framer.exists_frame carrier antenna 0 shortMessage hshort
    obtain ⟨packet', h'⟩ := plan.framer.exists_frame carrier' antenna' 0 shortMessage hshort
    have hbucket := bucket?_frame hlayout h
    have hbucket' := bucket?_frame hlayout h'
    rw [← hcarrier, ← hantenna] at hbucket'
    rw [acceptHeader_shortMessage] at hbucket hbucket'
    exact ⟨0, 0, shortMessage, shortMessage, packet, packet', _, h, h', hbucket, hbucket'⟩

end RadioUnit

/-! ## Flows of a configuration -/

namespace Config

variable {config : Config} {framer : Ecpri.Framer}

/-- The carriers and the antennas of a configuration have numbers in the fields of its layout. -/
def FitsLayout (config : Config) : Prop :=
  config.carriers.toNat ≤ 2 ^ config.layout.carrierBits.toNat ∧
    config.antennas.toNat ≤ 2 ^ config.layout.antennaBits.toNat

/-- Different flows of a configuration are never alike. -/
def Separates (config : Config) (Alike : UInt8 → UInt8 → UInt8 → UInt8 → Prop) : Prop :=
  ∀ carrier < config.carriers, ∀ antenna < config.antennas,
    ∀ carrier' < config.carriers, ∀ antenna' < config.antennas,
      Alike carrier antenna carrier' antenna' → carrier = carrier' ∧ antenna = antenna'

/-- A configuration that is accepted has a first carrier and a first antenna, and a layout that fits
a wire id. -/
lemma first_of_validate (h : config.validate = .ok ()) :
    0 < config.carriers ∧ 0 < config.antennas ∧ config.layout.totalBits ≤ 16 := by
  obtain ⟨hcarriers, hantennas, hlayout, -⟩ := validate_eq_ok h
  exact ⟨UInt8.pos_iff_ne_zero.mpr hcarriers, UInt8.pos_iff_ne_zero.mpr hantennas,
    EaxcLayout.validate_eq_ok.mp hlayout⟩

/-- Flows of which the layout keeps the same are one flow exactly when the layout is wide enough. -/
lemma separates_iff (h : config.validate = .ok ()) {Alike : UInt8 → UInt8 → UInt8 → UInt8 → Prop}
    (halike : ∀ carrier antenna carrier' antenna', Alike carrier antenna carrier' antenna' ↔
      EaxcLayout.keep carrier config.layout.carrierBits =
          EaxcLayout.keep carrier' config.layout.carrierBits ∧
        EaxcLayout.keep antenna config.layout.antennaBits =
          EaxcLayout.keep antenna' config.layout.antennaBits) :
    config.Separates Alike ↔ config.FitsLayout := by
  obtain ⟨hcarrier₀, hantenna₀, -⟩ := first_of_validate h
  rw [FitsLayout, ← EaxcLayout.keep_injective_iff, ← EaxcLayout.keep_injective_iff]
  constructor
  · -- along one antenna, and along one carrier
    intro hseparates
    constructor
    · intro carrier hcarrier carrier' hcarrier' hkeep
      exact (hseparates carrier hcarrier 0 hantenna₀ carrier' hcarrier' 0 hantenna₀
        ((halike ..).mpr ⟨hkeep, rfl⟩)).1
    · intro antenna hantenna antenna' hantenna' hkeep
      exact (hseparates 0 hcarrier₀ antenna hantenna 0 hcarrier₀ antenna' hantenna'
        ((halike ..).mpr ⟨rfl, hkeep⟩)).2
  · rintro ⟨hcarrier, hantenna⟩ carrier hc antenna ha carrier' hc' antenna' ha' hflows
    obtain ⟨hkeep, hkeep'⟩ := (halike ..).mp hflows
    exact ⟨hcarrier carrier hc carrier' hc' hkeep, hantenna antenna ha antenna' ha' hkeep'⟩

/-- The packets of every flow are read as packets of this flow. -/
def ReadsBack (config : Config) (framer : Ecpri.Framer) : Prop :=
  ∀ carrier < config.carriers, ∀ antenna < config.antennas, ∀ sequence message packet,
    framer.frame carrier antenna sequence message = .ok packet →
    ∃ header id, framer.parse packet = .ok (header, id) ∧ id.carrier = carrier ∧
      id.antenna = antenna

/-- Flows are read back exactly when the layout is wide enough. -/
lemma readsBack_iff (h : config.validate = .ok ()) (hlayout : framer.layout = config.layout) :
    config.ReadsBack framer ↔ config.FitsLayout := by
  obtain ⟨hcarrier₀, hantenna₀, htotal⟩ := first_of_validate h
  rw [← hlayout] at htotal
  rw [FitsLayout, ← EaxcLayout.forall_keep_iff, ← EaxcLayout.forall_keep_iff]
  constructor
  · intro hback
    have hkept (carrier : UInt8) (hc : carrier < config.carriers) (antenna : UInt8)
        (ha : antenna < config.antennas) :
        EaxcLayout.keep carrier config.layout.carrierBits = carrier ∧
          EaxcLayout.keep antenna config.layout.antennaBits = antenna := by
      obtain ⟨packet, hframe⟩ := framer.exists_frame carrier antenna 0 [] (by decide)
      obtain ⟨header, id, hparse, hcarrier, hantenna⟩ :=
        hback carrier hc antenna ha 0 [] packet hframe
      obtain ⟨-, header', id', hparse', hcarrier', hantenna'⟩ :=
        Ecpri.Framer.parse_frame htotal hframe
      obtain ⟨-, rfl⟩ := Prod.mk.inj (Except.ok.inj (hparse.symm.trans hparse'))
      rw [← hlayout, ← hcarrier', ← hantenna']
      exact ⟨hcarrier, hantenna⟩
    exact ⟨fun carrier hc => (hkept carrier hc 0 hantenna₀).1,
      fun antenna ha => (hkept 0 hcarrier₀ antenna ha).2⟩
  · rintro ⟨hcarrier, hantenna⟩ carrier hc antenna ha sequence message packet hframe
    obtain ⟨-, header, id, hparse, hcarrier', hantenna'⟩ := Ecpri.Framer.parse_frame htotal hframe
    rw [hlayout] at hcarrier' hantenna'
    exact ⟨header, id, hparse, hcarrier'.trans (hcarrier carrier hc),
      hantenna'.trans (hantenna antenna ha)⟩

/-- What the packets of the flows of a configuration tell. -/
structure TellsFlows (config : Config) (framer : Ecpri.Framer) : Prop where
  /-- Every message whose size can be written into a header has a packet. -/
  exists_frame : ∀ carrier antenna sequence, ∀ message : Bytes, message.length + 4 ≤ 65535 →
    ∃ packet, framer.frame carrier antenna sequence message = .ok packet
  /-- A packet tells of its carrier and of its antenna what the fields for them keep. -/
  parse_frame : ∀ carrier antenna sequence message packet,
    framer.frame carrier antenna sequence message = .ok packet →
    ∃ header id, framer.parse packet = .ok (header, id) ∧
      id.carrier.toNat = carrier.toNat % 2 ^ config.layout.carrierBits.toNat ∧
      id.antenna.toNat = antenna.toNat % 2 ^ config.layout.antennaBits.toNat
  /-- All flows are read back exactly when the layout is wide enough. -/
  readsBack_iff : config.ReadsBack framer ↔ config.FitsLayout
  /-- So it is with different ids for different flows. -/
  separates_ids_iff : config.Separates (fun carrier antenna carrier' antenna' =>
    framer.wireId carrier antenna = framer.wireId carrier' antenna') ↔ config.FitsLayout
  /-- So it is with different buckets of the radio unit. -/
  separates_buckets_iff : ∀ plan, Plan.create config = .ok plan →
    (config.Separates (RadioUnit.SharesBucket plan) ↔ config.FitsLayout)

/-- A configuration that is accepted has a framer, whose packets tell all flows apart exactly when
the fields of the layout have a number for each carrier and each antenna. -/
theorem tellsFlows_of_validate (h : config.validate = .ok ()) :
    ∃ framer, Ecpri.Framer.create config.layout 0 0 = .ok framer ∧ config.TellsFlows framer := by
  obtain ⟨-, -, hvalid, -⟩ := validate_eq_ok h
  have htotal := EaxcLayout.validate_eq_ok.mp hvalid
  have hcreate : Ecpri.Framer.create config.layout 0 0 = .ok ⟨config.layout, 0, 0⟩ :=
    bind_eq_ok.mpr ⟨(), hvalid, rfl⟩
  refine ⟨_, hcreate, Ecpri.Framer.exists_frame _, ?_, readsBack_iff h rfl, ?_, ?_⟩
  · intro carrier antenna sequence message packet hframe
    obtain ⟨-, header, id, hparse, hcarrier, hantenna⟩ := Ecpri.Framer.parse_frame htotal hframe
    refine ⟨header, id, hparse, ?_, ?_⟩
    · rw [hcarrier, EaxcLayout.toNat_keep]
    · rw [hantenna, EaxcLayout.toNat_keep]
  · exact separates_iff h fun _ _ _ _ => EaxcLayout.compose_eq_iff htotal rfl rfl
  · intro plan hplan
    have hframer : plan.framer.layout = config.layout := by
      simp only [Plan.create, bind_eq_ok, liftLink_eq_ok, hcreate, pure_eq_ok] at hplan
      obtain ⟨_, -, framer, hframer, _, -, _, -, rfl⟩ := hplan
      obtain rfl := Except.ok.inj hframer
      rfl
    refine separates_iff h fun _ _ _ _ => ?_
    rw [RadioUnit.sharesBucket_iff (hframer ▸ htotal), hframer]

/-- As many antennas as the usual layout has numbers for are told apart. -/
theorem tellsFlows_of_validate_sixteen :
    ({ carriers := 2, antennas := 16 } : Config).validate = .ok () ∧
      ∃ framer, Ecpri.Framer.create {} 0 0 = .ok framer ∧
        ({ carriers := 2, antennas := 16 } : Config).ReadsBack framer := by
  have hvalid : ({ carriers := 2, antennas := 16 } : Config).validate = .ok () := by
    decide +kernel
  obtain ⟨framer, hcreate, htells⟩ := tellsFlows_of_validate hvalid
  exact ⟨hvalid, framer, hcreate, htells.readsBack_iff.mpr ⟨by decide, by decide⟩⟩

/-- With one antenna more the configuration is still accepted, but the last antenna has the id of
the first one, and its packets are read as those of the first one. -/
theorem lastAntenna_as_first :
    ({ antennas := 17 } : Config).validate = .ok () ∧
      16 < ({ antennas := 17 } : Config).antennas ∧
      Ecpri.Framer.create {} 0 0 = .ok {} ∧
      Ecpri.Framer.wireId {} 0 16 = Ecpri.Framer.wireId {} 0 0 ∧
      ∃ packet header, Ecpri.Framer.frame {} 0 16 0 [] = .ok packet ∧
        Ecpri.Framer.parse {} packet = .ok (header, ⟨0, 0, 0, 0⟩) := by
  refine ⟨by decide +kernel, by decide, rfl, rfl, [16, 2, 0, 4, 0, 0, 0, 128],
    ⟨1, false, .control, 4, 0, 0, true, 0⟩, ?_, ?_⟩
  · decide +kernel
  · decide +kernel

end Config

end OpenFronthaul
