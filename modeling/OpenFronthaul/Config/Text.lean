import OpenFronthaul.Config.Basic
import OpenFronthaul.Toml.Document
import OpenFronthaul.Toml.Record

/-!
# Configuration texts

A configuration is written as a TOML document.  Every field has a default, except the resource
blocks of an element, the patterns of unpaired spectrum and the fields of a tag.
-/

namespace OpenFronthaul

open Toml Toml.RecordReader

/-! ## Words -/

namespace Category

/-- The word for a category. -/
def word : Category → String
  | a => "a"
  | b => "b"

/-- The category of a word. -/
def ofWord? : String → Option Category
  | "a" => some a
  | "b" => some b
  | _ => none

end Category

namespace DlMode

/-- The word for a layout of control messages. -/
def word : DlMode → String
  | burst => "burst"
  | spread => "spread"

/-- The layout of a word. -/
def ofWord? : String → Option DlMode
  | "burst" => some burst
  | "spread" => some spread
  | _ => none

end DlMode

namespace Role

/-- The word for a side of the fronthaul. -/
def word : Role → String
  | distributedUnit => "o_du"
  | radioUnit => "o_ru"

/-- The side of a word. -/
def ofWord? : String → Option Role
  | "o_du" => some distributedUnit
  | "o_ru" => some radioUnit
  | _ => none

end Role

namespace Technology

/-- The word for a technology. -/
def word : Technology → String
  | lte => "lte"
  | nr => "nr"

/-- The technology of a word. -/
def ofWord? : String → Option Technology
  | "lte" => some lte
  | "nr" => some nr
  | _ => none

end Technology

namespace IqCompression

/-- The word for a compression method. -/
def word : IqCompression → String
  | none => "none"
  | blockFloatingPoint => "block_floating_point"
  | blockScaling => "block_scaling"
  | muLaw => "u_law"
  | modulation => "modulation"

/-- The compression method of a word. -/
def ofWord? : String → Option IqCompression
  | "none" => some none
  | "block_floating_point" => some blockFloatingPoint
  | "block_scaling" => some blockScaling
  | "u_law" => some muLaw
  | "modulation" => some modulation
  | _ => Option.none

end IqCompression

/-! ## Delays -/

/-- A delay of a budget with its name in texts. -/
structure DelayField where
  /-- The name. -/
  name : String
  /-- The delay in a budget. -/
  get : DelayBudget → UInt32
  /-- The budget with another delay. -/
  set : DelayBudget → UInt32 → DelayBudget

/-- All delays of a budget in the order in which they are written. -/
def DelayField.all : List DelayField :=
  [⟨"t_adv_cp_dl", (·.advanceDl), fun b n => { b with advanceDl := n }⟩,
   ⟨"t2a_min_cp_dl", (·.t2aMinControlDl), fun b n => { b with t2aMinControlDl := n }⟩,
   ⟨"t2a_max_cp_dl", (·.t2aMaxControlDl), fun b n => { b with t2aMaxControlDl := n }⟩,
   ⟨"t2a_min_cp_ul", (·.t2aMinControlUl), fun b n => { b with t2aMinControlUl := n }⟩,
   ⟨"t2a_max_cp_ul", (·.t2aMaxControlUl), fun b n => { b with t2aMaxControlUl := n }⟩,
   ⟨"t2a_min_up", (·.t2aMinUser), fun b n => { b with t2aMinUser := n }⟩,
   ⟨"t2a_max_up", (·.t2aMaxUser), fun b n => { b with t2aMaxUser := n }⟩,
   ⟨"ta3_min", (·.ta3Min), fun b n => { b with ta3Min := n }⟩,
   ⟨"ta3_max", (·.ta3Max), fun b n => { b with ta3Max := n }⟩,
   ⟨"t1a_min_cp_dl", (·.t1aMinControlDl), fun b n => { b with t1aMinControlDl := n }⟩,
   ⟨"t1a_max_cp_dl", (·.t1aMaxControlDl), fun b n => { b with t1aMaxControlDl := n }⟩,
   ⟨"t1a_min_cp_ul", (·.t1aMinControlUl), fun b n => { b with t1aMinControlUl := n }⟩,
   ⟨"t1a_max_cp_ul", (·.t1aMaxControlUl), fun b n => { b with t1aMaxControlUl := n }⟩,
   ⟨"t1a_min_up", (·.t1aMinUser), fun b n => { b with t1aMinUser := n }⟩,
   ⟨"t1a_max_up", (·.t1aMaxUser), fun b n => { b with t1aMaxUser := n }⟩,
   ⟨"ta4_min", (·.ta4Min), fun b n => { b with ta4Min := n }⟩,
   ⟨"ta4_max", (·.ta4Max), fun b n => { b with ta4Max := n }⟩]

/-! ## Records -/

namespace Config

/-- A numerology by its number. -/
def readNumerology (value : Value) : Option Numerology := do
  Numerology.ofIndex? (← value.uint8?).toNat

/-- A layout of antenna-carrier ids. -/
def layoutReader : RecordReader EaxcLayout := do
  let unitBits ← optional "cu_port_bits" Value.uint8? 4
  let bandSectorBits ← optional "band_sector_bits" Value.uint8? 4
  let carrierBits ← optional "cc_id_bits" Value.uint8? 4
  let antennaBits ← optional "ru_port_bits" Value.uint8? 4
  return { unitBits, bandSectorBits, carrierBits, antennaBits }

/-- The tagging of section ids, written as a table with its mode, or as an array that starts with
it and has nothing beyond the fields of the mode. -/
def readTagging : Value → Option IdTagging
  | .table _ entries => do
    match ← (← Entries.find? entries "mode").string? with
    | "untagged" => return .untagged
    | "mu_high_bits" => return .highBits (← (← Entries.find? entries "mu_bits").uint8?)
    | _ => none
  | .array _ [.string "untagged"] => some .untagged
  | .array _ [.string "mu_high_bits", bits] => do return .highBits (← bits.uint8?)
  | _ => none

/-- A delay budget. -/
def budgetReader : RecordReader DelayBudget :=
  DelayField.all.foldlM
    (fun budget field => do
      return field.set budget (← optional field.name Value.uint32? (field.get budget)))
    {}

/-- The slot patterns of unpaired spectrum. -/
def patternsReader : RecordReader (List String) :=
  required "patterns" (Value.list? Value.string?)

/-- An element of a slot. -/
def elementReader : RecordReader PrbElement := do
  let startPrb ← required "rb_start" Value.uint16?
  let numPrb ← required "rb_size" Value.uint16?
  let startSymbol ← optional "start_sym" Value.uint8? 0
  let numSymbols ← optional "num_sym" Value.uint8? 14
  let beam ← optional "beam_index" Value.uint16? 0
  let weightUpdate ← optional "bf_weight_update" Value.boolean? false
  let compression ← optional "comp_method" (Value.word? IqCompression.ofWord?) .none
  let iqWidth ← optional "iq_width" Value.uint8? 16
  let scaler ← optional "mod_comp_scaler" Value.uint16? 0
  let shifted ← optional "csf" Value.boolean? false
  return { startPrb, numPrb, startSymbol, numSymbols, beam, weightUpdate, compression, iqWidth
           scaler, shifted }

/-- The elements of both directions, downlink first. -/
def mapReader : RecordReader (List PrbElement × List PrbElement) := do
  let usual : Config := {}
  let dl ← optional "dl" (Value.list? (Value.record? elementReader)) usual.dlElements
  let ul ← optional "ul" (Value.list? (Value.record? elementReader)) usual.ulElements
  return (dl, ul)

/-- The technology of each slot. -/
def readTechnologies (value : Value) : Option TechnologyPattern := do
  let slots ← value.list? (Value.word? Technology.ofWord?)
  (TechnologyPattern.create slots).toOption

/-- A whole configuration. -/
def reader : RecordReader Config := do
  let usual : Config := {}
  let mu ← optional "numerology" readNumerology usual.mu
  let carriers ← optional "num_cc" Value.uint8? usual.carriers
  let antennas ← optional "num_eaxc" Value.uint8? usual.antennas
  let category ← optional "category" (Value.word? Category.ofWord?) usual.category
  let dlMode ← optional "dl_cp_mode" (Value.word? DlMode.ofWord?) usual.dlMode
  let role ← optional "role" (Value.word? Role.ofWord?) usual.role
  let mtu ← optional "mtu" (Value.nat? 64) usual.mtu
  let bandwidthMHz ← optional "bandwidth_mhz" (Value.nat? 32) usual.bandwidthMHz
  let pointAKHz ← optional "point_a_khz" (Value.nat? 32) usual.pointAKHz
  let layout ← optional "eaxc_id" (Value.record? layoutReader) usual.layout
  let tagging ← optional "section_id_tagging" readTagging usual.tagging
  let budget ← optional "delay_budget" (Value.record? budgetReader) usual.budget
  let patterns ← optional "tdd" (fun v => (v.record? patternsReader).map some) usual.patterns
  let (dlElements, ulElements) ←
    optional "prb_map" (Value.record? mapReader) (usual.dlElements, usual.ulElements)
  let technologies ←
    optional "dss" (fun v => (readTechnologies v).map some) usual.technologies
  let runSlots ← optional "run_slots" (Value.nat? 64) usual.runSlots
  let workers ← optional "workers" (Value.nat? 64) usual.workers
  let tickMicros ← optional "tick_interval_us" (Value.nat? 64) usual.tickMicros
  return { mu, carriers, antennas, category, dlMode, role, mtu, bandwidthMHz, pointAKHz, layout
           tagging, budget, patterns, dlElements, ulElements, technologies, runSlots, workers
           tickMicros }

/-- The usable configuration of a text. -/
def ofText (text : String) : Except ConfigError Config := do
  match (Toml.parse text).bind reader.ofEntries with
  | none => throw .malformed
  | some c =>
    c.validate
    return c

end Config

end OpenFronthaul
