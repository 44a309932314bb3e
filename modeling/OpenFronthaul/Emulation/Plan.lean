import OpenFronthaul.Config.Basic

/-!
# The plan of a run

What follows from a configuration before anything runs: the frame structure, the framing and the
map of each direction.  Both sides of an emulated fronthaul go by the same plan.
-/

namespace OpenFronthaul

/-- What both sides of an emulated fronthaul go by. -/
structure Plan where
  /-- The configuration. -/
  config : Config
  /-- What the slots carry. -/
  frame : FrameStructure
  /-- Framing of the packets. -/
  framer : Ecpri.Framer
  /-- What is scheduled in every downlink slot. -/
  dlMap : PrbMap
  /-- What is scheduled in every uplink slot. -/
  ulMap : PrbMap

namespace Plan

/-- The plan of a configuration. -/
def create (config : Config) : Except Error Plan := do
  let frame ← config.frame
  let framer ← liftLink (Ecpri.Framer.create config.layout 0 0)
  let dlMap ← config.map .dl
  let ulMap ← config.map .ul
  return { config, frame, framer, dlMap, ulMap }

/-- What is scheduled in every slot of a direction. -/
def map (plan : Plan) : Direction → PrbMap
  | .dl => plan.dlMap
  | .ul => plan.ulMap

/-- An empty store with a place for every flow. -/
def emptyStore (plan : Plan) : Except Error SectionStore :=
  SectionStore.create plan.config.carriers.toNat plan.config.antennas.toNat defaultBucketCapacity

/-- The flows of a direction, carrier by carrier. -/
def flows (plan : Plan) (direction : Direction) : List Flow :=
  (List.range plan.config.carriers.toNat).flatMap fun carrier =>
    (List.range plan.config.antennas.toNat).map fun antenna =>
      ⟨direction, UInt8.ofNat carrier, UInt8.ofNat antenna⟩

end Plan

end OpenFronthaul
