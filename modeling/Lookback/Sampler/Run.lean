import Lookback.Sampler.Consumer
import Lookback.Sampler.Producer

/-!
# Runs of the sampler

A run lets one producer write samples into a shared history while consumers poll it. Its operations on the history do
not overlap, so a run is a list of actions (`Run.Action`): writes of the producer and polls of consumers in some order.
When the producer is done it stops all loops; each consumer then drains what it has left, and its report is final.

`Run.perform` carries out any such list. `Run.schedule` is the list that undisturbed timers give: the producer's first
sample at once and one more at each interval, a consumer's polls at the multiples of its own interval, and at the same
moment a write before polls.
-/

namespace Lookback

/-- Why a run gave no reports. -/
inductive RunError where
  /-- The settings are not valid. -/
  | settings (error : SettingsError)
  /-- The history or a worker could not be created. -/
  | creation (failure : Failure)
  /-- A worker broke off. -/
  | worker (name : String) (failure : Failure)
  deriving DecidableEq, Repr

namespace Run

/-- The name of the producer among the workers. -/
def producerName : String := "producer"

/-- One operation on the shared history. -/
inductive Action where
  /-- The producer writes its next sample. -/
  | write
  /-- A consumer polls. -/
  | poll (consumer : Nat)
  deriving DecidableEq, Repr

/-- The history and the workers. -/
structure State where
  produced : Producer.Produced
  consumers : List Consumer
  deriving Repr

/-- Refuses a name that no worker can have. -/
def checkName (name : String) : Except Failure Unit :=
  let bytes := name.toUTF8.toList.map UInt8.toNat
  match bytes.findIdx? (· == 0) with
  | some place => .error (.nullInName place bytes)
  | none => .ok ()

/-- Refuses names, the first one that no worker can have. -/
def checkNames : List String → Except Failure Unit
  | [] => .ok ()
  | name :: rest => do
    checkName name
    checkNames rest

/-- The state before the first action, if the settings are valid and the history and all workers can be created. -/
def start (memory : Memory) (s : Settings) : Except RunError State := do
  s.validate.mapError RunError.settings
  let history ← (History.ofValidSettings memory Sample.size s.buffer).mapError RunError.creation
  (checkNames (s.consumers.map ConsumerSettings.name)).mapError RunError.creation
  .ok ⟨⟨0, history⟩, s.consumers.map .create⟩

/-- Carries out one action. -/
def act (clock : Nat → Timestamp) (st : State) : Action → Except RunError State
  | .write => do
    let produced ← (Producer.write clock st.produced).mapError (RunError.worker producerName)
    .ok { st with produced }
  | .poll i =>
    match st.consumers[i]? with
    | none => .ok st
    | some c => do
      let polled ← (c.poll st.produced.history).mapError fun e => RunError.worker c.settings.name e.failure
      .ok { st with consumers := st.consumers.set i polled.consumer }

/-- Carries out actions in order. -/
def actAll (clock : Nat → Timestamp) (st : State) : List Action → Except RunError State
  | [] => .ok st
  | a :: rest => do
    let st ← act clock st a
    actAll clock st rest

/-- The reports of consumers after each has drained the history. -/
def reports (h : History Sample) : List Consumer → Except RunError (List Report)
  | [] => .ok []
  | c :: rest => do
    let drained ← (c.drain h).mapError fun e => RunError.worker c.settings.name e.failure
    let others ← reports h rest
    .ok (drained.consumer.report :: others)

/-- Carries out actions in order and ends the run. -/
def finish (clock : Nat → Timestamp) (st : State) (actions : List Action) : Except RunError (List Report) := do
  let st ← actAll clock st actions
  reports st.produced.history st.consumers

/-- Runs the sampler with its operations in a given order. -/
def perform (memory : Memory) (s : Settings) (clock : Nat → Timestamp) (actions : List Action) :
    Except RunError (List Report) := do
  let st ← start memory s
  finish clock st actions

/-! ## The order that timers give -/

/-- The number of multiples of an interval, zero not counted, that are at least `low` and less than `high`. -/
def multiplesBetween (interval low high : Nat) : Nat := (high - 1) / interval - (low - 1) / interval

/-- The polls from one moment up to another. -/
def pollsBetween (s : Settings) (low high : Nat) : List Action :=
  s.consumers.zipIdx.flatMap fun (c, i) => List.replicate (multiplesBetween c.intervalMs.toNat low high) (.poll i)

/-- All writes, and the polls that come before the last of them, in the order of time. -/
def schedule (s : Settings) : List Action :=
  let interval := s.producer.intervalMs.toNat
  let samples := s.producer.samples.toNat
  (List.range samples).flatMap fun k =>
    .write :: if k + 1 < samples then pollsBetween s (k * interval) ((k + 1) * interval) else []

/-- How long the writes of a run take, in milliseconds. -/
def duration (s : Settings) : Nat := (s.producer.samples.toNat - 1) * s.producer.intervalMs.toNat

/-- Runs the sampler as its timers would. The schedule is drawn up once the run has started. -/
def scheduled (memory : Memory) (s : Settings) (clock : Nat → Timestamp) : Except RunError (List Report) := do
  let st ← start memory s
  finish clock st (schedule s)

theorem scheduled_eq_perform (memory : Memory) (s : Settings) (clock : Nat → Timestamp) :
    scheduled memory s clock = perform memory s clock (schedule s) :=
  rfl

end Run

end Lookback
