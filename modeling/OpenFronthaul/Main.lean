import OpenFronthaul.CommandLine

/-!
# The program

Reads the arguments and the configuration file, lets the run take its time, and prints.
-/

namespace OpenFronthaul.Program

/-- Print informative lines. -/
def inform (options : Options) (lines : List String) : IO Unit := do
  if options.isInformative then
    for line in lines do
      IO.println line

/-- Let a number of symbols pass, each at its time after the start. -/
def pace (micros start : Nat) (run : Run) (count : Nat) : IO Run := do
  let mut run := run
  for symbol in [0:count] do
    run := run.tick
    let due := start + (symbol + 1) * micros * 1000
    let now ← IO.monoNanosNow
    if now + 1000000 ≤ due then
      IO.sleep (UInt32.ofNat ((due - now) / 1000000))
  return run

/-- Run a configuration at its pace. -/
def runPaced (config : Config) : IO (Except Error RunSummary) := do
  match Run.create config with
  | .error e => return .error e
  | .ok run =>
    let count := config.runSlots * symbolsPerSlot
    if config.tickMicros = 0 then return .ok (run.ticks count).summary
    else return .ok (← pace config.tickMicros (← IO.monoNanosNow) run count).summary

/-- Read, run and report; the result is the exit code. -/
def perform (options : Options) : IO UInt32 := do
  inform options ["Starting O-DU fronthaul driver", s!"Configuration file: {options.configFile}"]
  let text ← IO.FS.readFile options.configFile
  match Config.ofText text with
  | .error e =>
    let cause := e.message?.getD "not a configuration"
    IO.eprintln s!"Error: parsing configuration {options.configFile}: {cause}"
    return 1
  | .ok config =>
    let config := options.override config
    inform options config.report
    match ← runPaced config with
    | .error e =>
      IO.eprintln s!"Error: {e.message}"
      return 1
    | .ok summary =>
      inform options (summary.report ++ ["O-DU fronthaul driver shutdown complete"])
      return 0

end OpenFronthaul.Program

/-- The program. -/
def main (arguments : List String) : IO UInt32 := do
  match OpenFronthaul.Options.parse arguments with
  | .error e =>
    IO.eprintln s!"error: {e.message}"
    return 2
  | .ok options => OpenFronthaul.Program.perform options
