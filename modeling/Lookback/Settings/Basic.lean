import Lookback.History

/-!
# Settings of the sampler

What a run of the sampler is set up with: the size of the shared history, the pace and length of the producer, the
consumers, and the log. Sections and fields that are not given take standard values. `Settings.validate` accepts the
settings a run can be made with and names the first thing that is wrong with others.
-/

namespace Lookback

/-- How the producer writes. -/
structure ProducerSettings where
  /-- The time between samples, in milliseconds. -/
  intervalMs : UInt64
  /-- The number of samples to write. -/
  samples : UInt64
  deriving DecidableEq, Repr

/-- How one consumer reads. -/
structure ConsumerSettings where
  /-- The name its report is headed with. -/
  name : String
  /-- The most samples per poll. -/
  amount : UInt64
  /-- What to do with more unread samples than that. -/
  mode : ReadMode
  /-- Whether to accept full batches only. -/
  exact : Bool
  /-- The time between polls, in milliseconds. -/
  intervalMs : UInt64
  deriving DecidableEq, Repr

/-- What is logged, and how. -/
structure LogSettings where
  /-- The name of the most detailed level shown. -/
  level : String
  /-- Whether lines are written as JSON. -/
  json : Bool
  deriving DecidableEq, Repr

/-- The settings of a run. -/
structure Settings where
  buffer : BufferSettings
  producer : ProducerSettings
  consumers : List ConsumerSettings
  log : LogSettings
  deriving DecidableEq, Repr

/-! ## Standard values -/

/-- The mode of a read for which none is set. -/
def ReadMode.standard : ReadMode := .windowed

/-- The pace and length of a run for which none are set. -/
def ProducerSettings.standard : ProducerSettings := ⟨20, 200⟩

/-- The log for which nothing is set. -/
def LogSettings.standard : LogSettings := ⟨"info", false⟩

/-- The settings of a run for which nothing is set: a small history, one consumer that follows the samples, one that
looks at the newest, and one that takes full batches. -/
def Settings.standard : Settings where
  buffer := ⟨64⟩
  producer := .standard
  consumers := [⟨"continuous", 8, .continuous, false, 100⟩, ⟨"windowed", 8, .windowed, false, 100⟩,
    ⟨"batches", 16, .continuous, true, 50⟩]
  log := .standard

/-- What a consumer asks for in each poll. -/
def ConsumerSettings.request (c : ConsumerSettings) : Request := ⟨c.amount.toNat, c.mode, c.exact⟩

/-! ## Errors -/

/-- What is wrong with settings. -/
inductive SettingsError where
  /-- They could not be found, read or converted. -/
  | unreadable
  /-- The history would have no slots. -/
  | zeroCapacity
  /-- The producer would write without pause. -/
  | zeroProducerInterval
  /-- A consumer would never take anything. -/
  | zeroAmount (consumer : String)
  /-- A consumer would wait for more samples than are ever held. -/
  | amountAboveCapacity (consumer : String)
  /-- A consumer would poll without pause. -/
  | zeroPollInterval (consumer : String)
  /-- No level of the log has the name that is set. -/
  | unknownLevel
  /-- The log was already set up. -/
  | logInUse
  /-- Laying settings over each other raised an alarm. -/
  | alarm (failure : Failure)
  deriving DecidableEq, Repr

namespace SettingsError

/-- The setting an error is about, if it is about one of them, and what is wrong with it. -/
def setting? : SettingsError → Option (String × String)
  | zeroProducerInterval => some ("producer.interval_ms", zero)
  | zeroAmount c => some (s!"consumers.{c}.amount", zero)
  | amountAboveCapacity c => some (s!"consumers.{c}.amount", "exact batches cannot exceed the buffer capacity")
  | zeroPollInterval c => some (s!"consumers.{c}.interval_ms", zero)
  | unknownLevel => some ("log.level", "expected trace, debug, info, warn or error")
  | unreadable | zeroCapacity | logInUse | alarm _ => none
where
  zero := "must be greater than zero"

/-- The text of an error. -/
def message (e : SettingsError) : String :=
  match e.setting? with
  | some (field, reason) => s!"Invalid setting {field}: {reason}"
  | none =>
    match e with
    | zeroCapacity => "Invalid buffer settings: " ++ Failure.zeroCapacity.message
    | logInUse => "Logging setup failed: a global default trace dispatcher has already been set"
    | alarm failure => failure.message
    | _ => "Configuration error"

end SettingsError

/-! ## Validation -/

/-- Checks one consumer against the capacity of the history it reads. -/
def ConsumerSettings.validate (c : ConsumerSettings) (capacity : UInt64) : Except SettingsError Unit :=
  if c.amount = 0 then .error (.zeroAmount c.name)
  else if c.exact ∧ capacity < c.amount then .error (.amountAboveCapacity c.name)
  else if c.intervalMs = 0 then .error (.zeroPollInterval c.name)
  else .ok ()

namespace Settings

/-- Checks consumers in order. -/
def validateConsumers (capacity : UInt64) : List ConsumerSettings → Except SettingsError Unit
  | [] => .ok ()
  | c :: rest => do
    c.validate capacity
    validateConsumers capacity rest

/-- Checks that a run can be made with these settings. -/
def validate (s : Settings) : Except SettingsError Unit :=
  match s.buffer.validate with
  | .error _ => .error .zeroCapacity
  | .ok () =>
    if s.producer.intervalMs = 0 then .error .zeroProducerInterval
    else validateConsumers s.buffer.capacity s.consumers

end Settings

end Lookback
