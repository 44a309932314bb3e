/-!
# Carrier tables

The number of resource blocks of a carrier by numerology and bandwidth, in the low and in the high
frequency range, and the channel number of a centre frequency on the global raster.
-/

namespace OpenFronthaul.Carrier

/-- One bandwidth of a frequency range with its resource blocks by numerology. -/
structure BandwidthRow where
  /-- Channel bandwidth in megahertz. -/
  megahertz : Nat
  /-- Resource blocks for each numerology of the range, zero where the pair is not used. -/
  blocks : List Nat

/-- The range up to six gigahertz, for numerologies 0 to 2. -/
def lowRange : List BandwidthRow :=
  [⟨5, [25, 11, 0]⟩, ⟨10, [52, 24, 11]⟩, ⟨15, [79, 38, 18]⟩, ⟨20, [106, 51, 24]⟩,
   ⟨25, [133, 65, 31]⟩, ⟨30, [160, 78, 38]⟩, ⟨40, [216, 106, 51]⟩, ⟨50, [270, 133, 65]⟩,
   ⟨60, [0, 162, 79]⟩, ⟨70, [0, 0, 0]⟩, ⟨80, [0, 217, 107]⟩, ⟨90, [0, 245, 121]⟩,
   ⟨100, [0, 273, 135]⟩]

/-- The range above six gigahertz, for numerologies 2 and 3. -/
def highRange : List BandwidthRow :=
  [⟨50, [66, 32]⟩, ⟨100, [132, 66]⟩, ⟨200, [264, 132]⟩, ⟨400, [0, 264]⟩]

/-- The highest frequency of point A, in kilohertz, that belongs to the low range. -/
def lowRangeTopKHz : Nat := 6000000

/-- Resource blocks of a carrier; zero where the tables have no entry. -/
def resourceBlocks (mu megahertz pointAKHz : Nat) : Nat :=
  let entry (rows : List BandwidthRow) (column : Nat) : Nat :=
    ((rows.find? (·.megahertz = megahertz)).bind (·.blocks[column]?)).getD 0
  if pointAKHz ≤ lowRangeTopKHz then entry lowRange mu
  else if 2 ≤ mu then entry highRange (mu - 2)
  else 0

/-- One stretch of the global frequency raster. -/
structure RasterBand where
  /-- First frequency of the stretch in kilohertz. -/
  bottom : Nat
  /-- Last frequency of the stretch in kilohertz. -/
  top : Nat
  /-- Distance of neighbouring channels in kilohertz. -/
  step : Nat
  /-- Frequency of the first channel in kilohertz. -/
  origin : Nat
  /-- Number of the first channel. -/
  firstChannel : Nat

/-- The stretches of the global frequency raster. -/
def raster : List RasterBand :=
  [⟨1, 2999999, 5, 0, 0⟩, ⟨3000000, 24249999, 15, 3000000, 600000⟩,
   ⟨24250000, 100000000, 60, 24250080, 2016667⟩]

/-- The channel number of a centre frequency; zero off the raster. -/
def channelNumber (kilohertz : Nat) : Nat :=
  match raster.find? (fun band => band.bottom ≤ kilohertz ∧ kilohertz ≤ band.top) with
  | some band => (kilohertz - band.origin) / band.step + band.firstChannel
  | none => 0

end OpenFronthaul.Carrier
