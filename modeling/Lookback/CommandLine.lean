import Lookback.LogLevel
import Lookback.Sampler.Run
import Lookback.Settings.Load

/-!
# The command line

The program takes no arguments: `SAMPLER_CONFIG` may name a settings file. It loads the settings, sets up the log, runs
the sampler, and logs one line per consumer. `CommandLine.run` says what that gives: the lines of the log, and how it
ends.
-/

namespace Lookback

namespace CommandLine

/-- The variable that names a settings file. -/
def pathVariable : String := "SAMPLER_CONFIG"

/-- The first line of a run. -/
def banner : String := "=== History Sampler v0.1.0 ==="

/-! ## Lines of the log -/

/-- A line of the log. -/
structure Line where
  level : LogLevel
  message : String
  deriving DecidableEq, Repr

/-- Whether a terminal may take a character for a command: bell, backspace, form feed, escape, delete, and all controls
past ASCII. -/
def isTerminalControl (c : Char) : Bool :=
  c = '\x07' || c = '\x08' || c = '\x0c' || c = '\x1b' || c = '\x7f' || (0x80 ≤ c.toNat && c.toNat ≤ 0x9f)

/-- A character as a terminal is sent it: a control that it may act on is written out as its number. -/
def visible (c : Char) : List Char :=
  let hex := Nat.toDigits 16 c.toNat
  if !isTerminalControl c then [c]
  else if c.toNat < 0x80 then '\\' :: 'x' :: List.replicate (2 - hex.length) '0' ++ hex
  else '\\' :: 'u' :: '\x7b' :: hex ++ ['\x7d']

/-- The message of a line as the log carries it: JSON has escapes of its own, and plain text goes to a terminal. -/
def Line.shown (json : Bool) (l : Line) : String :=
  if json then l.message else String.ofList (l.message.toList.flatMap visible)

/-- The text of a line of the log. -/
def Line.text (json : Bool) (l : Line) : String :=
  let level := l.level.name.toUpper
  if json then
    Json.write (.table [("level", .text level), ("fields", .table [("message", .text (l.shown json))]),
      ("target", .text "sampler"), ("threadName", .text "main")])
  else s!"{level} main sampler: {l.shown json}"

/-! ## Runs of the program -/

/-- How a run of the program ends. -/
inductive Ending where
  /-- It did all it had to do. -/
  | done
  /-- It gave up, with a message. -/
  | failed (message : String)
  /-- It raised an alarm. -/
  | alarm (failure : Failure)
  deriving DecidableEq, Repr

/-- The exit status of an ending. Where memory is not granted the program is aborted. -/
def Ending.exitStatus : Ending → Nat
  | done => 0
  | failed _ => 1
  | alarm (.notGranted _) => 134
  | alarm _ => 101

/-- What a run of the program gives. -/
structure Outcome where
  ending : Ending
  /-- Whether the log is written as JSON. -/
  json : Bool
  /-- The lines of the log that are shown. -/
  lines : List Line
  deriving DecidableEq, Repr

/-- What is settled before a run: its settings and the level of the log. -/
structure Plan where
  settings : Settings
  shown : LogLevel
  deriving DecidableEq, Repr

/-- The settings file that the environment names. -/
def path? (env : Environment) : Option String := (env.find? fun e => e.1 == pathVariable).map (·.2)

/-- Loads the settings and sets up the log. -/
def plan (x : Surroundings) : Except Ending Plan :=
  match Settings.load x (path? x.env) with
  | .error (.alarm failure) => .error (.alarm failure)
  | .error _ => .error (.failed "Failed to load sampler settings")
  | .ok settings =>
    match settings.log.setUp false with
    | .error _ => .error (.failed "Failed to initialize logging")
    | .ok shown => .ok ⟨settings, shown⟩

/-- What a planned run gives, with the reports it ends with. -/
def Plan.outcome (p : Plan) (result : Except RunError (List Report)) : Outcome :=
  let lines (messages : List String) : List Line :=
    (messages.map fun m => ⟨.info, m⟩).filter fun l => p.shown.shows l.level
  let json := p.settings.log.json
  match result with
  | .ok reports => ⟨.done, json, lines (banner :: reports.map Report.summary)⟩
  | .error (.creation failure) => ⟨.alarm failure, json, lines [banner]⟩
  | .error _ => ⟨.failed "Sampler run failed", json, lines [banner]⟩

/-- Runs the program, where a clock says when each sample is taken. -/
def run (memory : Memory) (x : Surroundings) (clock : Nat → Timestamp) : Outcome :=
  match plan x with
  | .error ending => ⟨ending, false, []⟩
  | .ok p => p.outcome (Run.scheduled memory p.settings clock)

end CommandLine

end Lookback
