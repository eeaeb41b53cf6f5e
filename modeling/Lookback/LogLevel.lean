import Lookback.Number.Integer
import Lookback.Settings.Basic

/-!
# Levels of the log

A level is set by its name, in any case, or by its number: 1 for errors only, up to 5 for everything. A line is shown if
its level is at most as detailed as the one set. A process sets up its log once.
-/

namespace Lookback

/-- How much detail a line of the log gives. -/
inductive LogLevel where
  | error | warn | info | debug | trace
  deriving DecidableEq, Repr

namespace LogLevel

/-- The number of a level: the more detail, the greater. -/
def number : LogLevel → Nat
  | error => 1
  | warn => 2
  | info => 3
  | debug => 4
  | trace => 5

/-- The name of a level. -/
def name : LogLevel → String
  | error => "error"
  | warn => "warn"
  | info => "info"
  | debug => "debug"
  | trace => "trace"

/-- All levels. -/
def all : List LogLevel := [error, warn, info, debug, trace]

/-- The level that a name in any case, or a number, stands for. -/
def ofText? (text : String) : Option LogLevel :=
  match Integer.unsigned? lastWord text with
  | some n => all.find? fun l => l.number == n
  | none => all.find? fun l => l.name == text.map Char.toLower

/-- Whether a line is shown when the log is set to a level. -/
def shows (set line : LogLevel) : Bool := line.number ≤ set.number

end LogLevel

/-- Sets up the log of a process, which is refused if it is `inUse` already, and gives the level that is shown. -/
def LogSettings.setUp (inUse : Bool) (l : LogSettings) : Except SettingsError LogLevel :=
  match LogLevel.ofText? l.level with
  | none => .error .unknownLevel
  | some level => if inUse then .error .logInUse else .ok level

end Lookback
