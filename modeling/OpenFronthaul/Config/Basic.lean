import OpenFronthaul.Carrier
import OpenFronthaul.Producer
import OpenFronthaul.Timing.Scheduler

/-!
# Configurations

A configuration describes a carrier group, its delays and the work of every slot, and how long and
with how many workers to run.  `Config.validate` refuses what cannot run; a slot pattern is only
read when the frame structure is asked for.
-/

namespace OpenFronthaul

/-- Why there is no configuration. -/
inductive ConfigError where
  /-- The text is no configuration. -/
  | malformed
  /-- There is no carrier or no antenna. -/
  | noFlows
  /-- There is no worker. -/
  | noWorkers
  /-- The pattern of slots is empty or too long. -/
  | tddPeriod (slots : Nat)
  /-- The layout of the antenna-carrier ids is unusable. -/
  | layout (cause : LinkError)
  /-- The map of a direction is unusable. -/
  | map (cause : Error)
deriving DecidableEq

namespace ConfigError

/-- The message of a failure; a text that is no configuration has none. -/
def message? : ConfigError → Option String
  | malformed => none
  | noFlows => some "num_cc and num_eaxc must be at least 1"
  | noWorkers => some "at least one worker is required"
  | tddPeriod slots => some s!"TDD period of {slots} slots, expected 1..={maxTddPeriod}"
  | layout cause => some cause.message
  | map cause => some cause.message

end ConfigError

/-- A configuration. -/
structure Config where
  /-- Numerology. -/
  mu : Numerology := .khz30
  /-- Component carriers. -/
  carriers : UInt8 := 1
  /-- Antennas of each carrier. -/
  antennas : UInt8 := 4
  /-- Where beams are processed. -/
  category : Category := .a
  /-- Layout of the downlink control messages of a slot. -/
  dlMode : DlMode := .burst
  /-- Side of the fronthaul. -/
  role : Role := .distributedUnit
  /-- The largest Ethernet frame. -/
  mtu : Nat := 9600
  /-- Channel bandwidth. -/
  bandwidthMHz : Nat := 100
  /-- Frequency of point A. -/
  pointAKHz : Nat := 3500000
  /-- Layout of the antenna-carrier ids. -/
  layout : EaxcLayout := {}
  /-- How section ids carry the numerology. -/
  tagging : IdTagging := .untagged
  /-- Delays. -/
  budget : DelayBudget := {}
  /-- The texts of the slot patterns on unpaired spectrum. -/
  patterns : Option (List String) := none
  /-- Elements of every downlink slot. -/
  dlElements : List PrbElement := [{ numPrb := 273 }]
  /-- Elements of every uplink slot. -/
  ulElements : List PrbElement := [{ numPrb := 273 }]
  /-- The technology of each slot on shared spectrum. -/
  technologies : Option TechnologyPattern := none
  /-- Slots to run. -/
  runSlots : Nat := 200
  /-- Workers. -/
  workers : Nat := 2
  /-- Microseconds between two symbols of a run; with zero it runs without a pause. -/
  tickMicros : Nat := 0
deriving DecidableEq

namespace Config

/-- Whether both directions share one spectrum. -/
def duplex (c : Config) : Duplex :=
  if c.patterns.isSome then .tdd else .fdd

/-- The elements of every slot of a direction. -/
def elements (c : Config) : Direction → List PrbElement
  | .dl => c.dlElements
  | .ul => c.ulElements

/-- The map of every slot of a direction. -/
def map (c : Config) (direction : Direction) : Except Error PrbMap :=
  PrbMap.create direction (c.elements direction)

/-- What the slots carry. -/
def frame (c : Config) : Except Error FrameStructure := do
  match c.patterns with
  | none => return .fdd c.mu
  | some texts => FrameStructure.tdd c.mu (← texts.mapM SlotPattern.parse)

/-- The resource blocks of the carrier, if its bandwidth is one of the tables. -/
def carrierPrbs? (c : Config) : Option UInt16 :=
  match Carrier.resourceBlocks c.mu.index c.bandwidthMHz c.pointAKHz with
  | 0 => none
  | blocks => some (UInt16.ofNat blocks)

/-- Refuse a pattern of slots that is empty or too long. -/
def validatePeriod (c : Config) : Except ConfigError Unit :=
  match c.patterns with
  | none => pure ()
  | some texts =>
    if texts.isEmpty ∨ maxTddPeriod < texts.length then throw (.tddPeriod texts.length)
    else pure ()

/-- Refuse a configuration that cannot run. -/
def validate (c : Config) : Except ConfigError Unit := do
  if c.carriers = 0 ∨ c.antennas = 0 then throw .noFlows
  if c.workers = 0 then throw .noWorkers
  c.validatePeriod
  c.layout.validate.mapError .layout
  let _ ← (c.map .dl).mapError .map
  let _ ← (c.map .ul).mapError .map
  return ()

end Config

end OpenFronthaul
