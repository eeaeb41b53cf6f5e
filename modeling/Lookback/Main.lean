import Lookback.CommandLine

/-!
# The program

The outer layer of the sampler: it gathers the files and variables that settings may come from, asks `CommandLine` what
a run gives, and prints that. Between the first line of the log and the reports it waits as long as the producer would.
-/

namespace Lookback

namespace Program

/-- The text of a file, if there is such a file. -/
def readFile? (name : String) : IO (Option String) := do
  try
    return some (← IO.FS.readFile name)
  catch _ => return none

/-- The variables of the environment, as the system lists them: each ends with a null character. -/
def environment : IO Environment := do
  let some listing ← readFile? "/proc/self/environ" | return []
  return (listing.splitOn "\x00").filterMap fun entry =>
    match entry.splitOn "=" with
    | name :: first :: rest => some (name, "=".intercalate (first :: rest))
    | _ => none

/-- The files that paths to settings can stand for. -/
def directory (paths : List String) : IO Directory := do
  let candidates := (paths.filterMap FileName.ofText?).flatMap (FileName.candidates FileFormat.all)
  candidates.filterMapM fun file => do
    let text? ← readFile? file.text
    return text?.map fun text => (file.text, text)

/-- The time between the samples of a planned run, in milliseconds. -/
def interval : Except CommandLine.Ending CommandLine.Plan → Nat
  | .ok p => p.settings.producer.intervalMs.toNat
  | .error _ => 0

/-- How long the writes of a planned run take, in milliseconds. -/
def duration : Except CommandLine.Ending CommandLine.Plan → Nat
  | .ok p => Run.duration p.settings
  | .error _ => 0

/-- Prints what went wrong, if anything did. -/
def printError : CommandLine.Ending → IO Unit
  | .done => pure ()
  | .failed message => IO.eprintln s!"Error: {message}"
  | .alarm failure => IO.eprintln failure.message

/-- Prints lines of the log. -/
def print (json : Bool) (lines : List CommandLine.Line) : IO Unit :=
  lines.forM fun line => IO.println (line.text json)

/-- Runs the sampler with the settings of the working directory and the environment; the result is the exit status. -/
def run : IO UInt32 := do
  let env ← environment
  let files ← directory (Settings.localName :: (CommandLine.path? env).toList)
  let surroundings : Surroundings := ⟨FileFormat.all, files, env, fun _ => .asWritten⟩
  let plan := CommandLine.plan surroundings
  let start ← IO.monoMsNow
  let outcome := CommandLine.run .boundless surroundings fun sequence => .ofMillis (start + sequence * interval plan)
  print outcome.json (outcome.lines.take 1)
  IO.sleep (min (duration plan) 0xFFFFFFFF).toUInt32
  print outcome.json (outcome.lines.drop 1)
  printError outcome.ending
  return outcome.ending.exitStatus.toUInt32

end Program

end Lookback

/-- The program takes no arguments. -/
def main : IO UInt32 := Lookback.Program.run
