import OpenFronthaul.Config.Text
import OpenFronthaul.Emulation.Run

/-!
# The command line

The program reads a configuration file, runs it and reports.  `Options.parse` reads the arguments,
which may override two fields of the configuration; `Config.report` and `RunSummary.report` are the
lines printed before and after the run.
-/

namespace OpenFronthaul

-- Powers are those of the core library, whatever else is imported.
attribute [local instance (high)] instPowNat

/-- The options of the command line. -/
inductive Flag where
  | config
  | logLevel
  | runSlots
  | tickMicros
deriving DecidableEq

namespace Flag

/-- The long form of an option. -/
def long : Flag → String
  | config => "--config"
  | logLevel => "--log-level"
  | runSlots => "--run-slots"
  | tickMicros => "--tick-interval-us"

/-- The short form of an option, if it has one. -/
def short? : Flag → Option String
  | config => some "-c"
  | logLevel => some "-l"
  | runSlots | tickMicros => none

/-- All options. -/
def all : List Flag := [config, logLevel, runSlots, tickMicros]

/-- The value that stands in the same argument as a long option, behind an equals sign. -/
def longValue? (flag : Flag) (argument : String) : Option String :=
  let start := (flag.long ++ "=").toList
  if start.isPrefixOf argument.toList then
    some (String.ofList (argument.toList.drop start.length))
  else none

/-- The value that stands in the same argument as a short option. -/
def shortValue? (flag : Flag) (argument : String) : Option String := do
  let start := (← flag.short?).toList
  let rest := argument.toList.drop start.length
  if start.isPrefixOf argument.toList && !rest.isEmpty then
    match rest with
    | '=' :: value => some (String.ofList value)
    | value => some (String.ofList value)
  else none

/-- The value that stands in the same argument as an option. -/
def value? (flag : Flag) (argument : String) : Option String :=
  (flag.longValue? argument).or (flag.shortValue? argument)

/-- Whether an argument is an option without its value. -/
def isBare (flag : Flag) (argument : String) : Bool :=
  argument = flag.long || some argument = flag.short?

end Flag

/-- Why the arguments are refused. -/
inductive UsageError where
  | unexpected (argument : String)
  | missingValue (flag : Flag)
  | repeated (flag : Flag)
  | notANumber (flag : Flag) (value : String)
deriving DecidableEq

/-- The message of a refusal. -/
def UsageError.message : UsageError → String
  | unexpected argument => s!"unexpected argument '{argument}' found"
  | missingValue flag => s!"a value is required for '{flag.long}' but none was supplied"
  | repeated flag => s!"the argument '{flag.long}' cannot be used multiple times"
  | notANumber flag value => s!"invalid value '{value}' for '{flag.long}'"

/-- What the arguments say. -/
structure Options where
  /-- The configuration file. -/
  configFile : String := "fronthaul.toml"
  /-- The least important messages that are printed. -/
  logLevel : String := "info"
  /-- Slots to run instead of the configured ones. -/
  runSlots : Option Nat := none
  /-- Microseconds between symbols instead of the configured ones. -/
  tickMicros : Option Nat := none
  /-- The options that were given. -/
  given : List Flag := []

namespace Options

/-- The number that a text of digits denotes, if it fits 64 bits. -/
def number? (text : String) : Option Nat :=
  let digits := match text.toList with
    | '+' :: digits => digits
    | digits => digits
  let n := digits.foldl (fun n c => n * 10 + (c.toNat - '0'.toNat)) 0
  if !digits.isEmpty && digits.all Char.isDigit && n < 2 ^ (64 : Nat) then some n else none

/-- The options with one more value. -/
def set (o : Options) (flag : Flag) (value : String) : Except UsageError Options := do
  if o.given.contains flag then throw (.repeated flag)
  let o := { o with given := flag :: o.given }
  let number : Except UsageError Nat :=
    match number? value with
    | some n => pure n
    | none => throw (.notANumber flag value)
  match flag with
  | .config => return { o with configFile := value }
  | .logLevel => return { o with logLevel := value }
  | .runSlots => return { o with runSlots := some (← number) }
  | .tickMicros => return { o with tickMicros := some (← number) }

/-- The option that an argument gives, with its value if it stands in the same argument. -/
def flag? (argument : String) : Option (Flag × Option String) :=
  Flag.all.findSome? fun flag =>
    if flag.isBare argument then some (flag, none)
    else (flag.value? argument).map fun value => (flag, some value)

/-- The options with the remaining arguments. -/
def parseFrom (o : Options) : List String → Except UsageError Options
  | [] => pure o
  | argument :: rest =>
    match flag? argument with
    | none => throw (.unexpected argument)
    | some (flag, some value) => do (← o.set flag value).parseFrom rest
    | some (flag, none) =>
      match rest with
      | [] => throw (.missingValue flag)
      | value :: rest => do (← o.set flag value).parseFrom rest

/-- The options of the arguments. -/
def parse (arguments : List String) : Except UsageError Options :=
  parseFrom {} arguments

/-- Whether informative messages are printed. -/
def isInformative (o : Options) : Bool :=
  ["trace", "debug", "info"].contains o.logLevel

/-- A configuration with the fields that the options override. -/
def override (o : Options) (c : Config) : Config :=
  { c with
    runSlots := o.runSlots.getD c.runSlots
    tickMicros := o.tickMicros.getD c.tickMicros }

end Options

/-! ## Reports -/

/-- The lines printed before a run. -/
def Config.report (c : Config) : List String :=
  let category := match c.category with
    | .a => "A"
    | .b => "B"
  let role := match c.role with
    | .distributedUnit => "ODu"
    | .radioUnit => "ORu"
  let duplex := match c.duplex with
    | .fdd => "Fdd"
    | .tdd => "Tdd"
  let mode := match c.dlMode with
    | .burst => "Burst"
    | .spread => "Spread"
  ["Fronthaul configuration:",
    s!"  Numerology: {c.mu.index}",
    s!"  Carriers: {c.carriers.toNat}, eAxC per carrier: {c.antennas.toNat}",
    s!"  Category: {category}, role: {role}",
    s!"  Duplex: {duplex}",
    s!"  DL C-Plane mode: {mode}",
    s!"  MTU: {c.mtu} bytes"]

/-- The lines printed after a run. -/
def RunSummary.report (s : RunSummary) : List String :=
  let sent := s.producer.packets
  let scheduler := s.scheduler
  let radio := s.radio
  [s!"Ran {s.slots} slots: {sent} C-Plane packets sent, "
      ++ s!"{radio.sections} sections decoded by the O-RU, {radio.failures} errors",
    s!"Scheduler: {scheduler.ticks} ticks, {scheduler.dispatched} callbacks dispatched, "
      ++ s!"{scheduler.skipped} skipped",
    s!"O-RU: {radio.packets} packets, {radio.sections} sections, "
      ++ s!"{radio.lengthMismatches} extension length mismatches, "
      ++ s!"{radio.technologyMismatches} DSS mismatches",
    s!"UL reception deadlines: {s.ulDeadlines}"]

end OpenFronthaul
