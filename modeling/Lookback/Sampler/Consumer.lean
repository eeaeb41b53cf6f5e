import Lookback.Sampler.Report
import Lookback.Sampler.Sample

/-!
# Consumers

A consumer reads a history of samples through its own cursor and accounts for what it receives. It polls from time to
time, and when the sampler stops it drains the history: it polls until a poll brings nothing.

A poll first reads, which moves the cursor, and then accounts for the batch; where accounting is cut short the cursor
has moved all the same.
-/

namespace Lookback

/-- A reader of samples with its cursor and its report. -/
structure Consumer where
  settings : ConsumerSettings
  cursor : Nat
  report : Report
  deriving Repr

namespace Consumer

/-- A consumer that has not read anything yet. -/
def create (settings : ConsumerSettings) : Consumer := ⟨settings, 0, .empty settings.name⟩

/-- What a poll brings: the batch, and the consumer afterwards. -/
structure Polled where
  batch : List Sample
  consumer : Consumer
  deriving Repr

/-- Reads the next batch and accounts for it. -/
def poll (c : Consumer) (h : History Sample) : Except (Interrupted Consumer) Polled := do
  let reading ← Interrupted.guard c (h.read c.settings.request c.cursor)
  let c := { c with cursor := reading.cursor }
  match c.report.record (reading.batch.map fun s => s.sequence.toNat) with
  | .ok report => .ok ⟨reading.batch, { c with report }⟩
  | .error e => .error ⟨{ c with report := e.state }, e.failure⟩

/-- What a drain brings: the batches that are not empty, and the consumer afterwards. -/
structure Drained where
  batches : List (List Sample)
  consumer : Consumer
  deriving Repr

/-- Polls until a poll brings nothing, at most `bound` times. -/
def drainWithin (h : History Sample) : (bound : Nat) → Consumer → Except (Interrupted Consumer) Drained
  | 0, c => .ok ⟨[], c⟩
  | bound + 1, c => do
    let polled ← c.poll h
    if polled.batch.isEmpty then .ok ⟨[], polled.consumer⟩
    else
      let rest ← drainWithin h bound polled.consumer
      .ok ⟨polled.batch :: rest.batches, rest.consumer⟩

/-- Polls until a poll brings nothing. Every other poll takes at least one of the samples held, and no sample is taken
twice, so one poll more than there are samples always includes the empty one. -/
def drain (c : Consumer) (h : History Sample) : Except (Interrupted Consumer) Drained := drainWithin h (h.size + 1) c

end Consumer

end Lookback
