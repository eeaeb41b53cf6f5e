import Lookback.Sampler.Sample
import Lookback.Time.Timer

/-!
# The producer

The producer writes one synthetic sample per tick, numbered from 0, until it has written as many as it is set to or its
stop signal is given; then it gives the signal itself, so that all other loops end as well.

`Producer.run` is told how many ticks are granted before the signal is given. `Producer.runOnTimer` finds out by the looks of
its timer, tick by tick, and keeps a record of what happens: nothing looks at the signal between the end of a tick and the write
that it grants.
-/

namespace Lookback

namespace Producer

/-- What the producer leaves. -/
structure Produced where
  /-- The number of samples written. -/
  count : Nat
  history : History Sample
  deriving Repr

/-- Writes the sample of the next sequence number. -/
def write (clock : Nat → Timestamp) (p : Produced) : Except Failure Produced := do
  let history ← p.history.insert (.synthetic p.count.toUInt64 (clock p.count))
  .ok ⟨p.count + 1, history⟩

/-- Writes up to `left` more samples, one for each tick that is granted. -/
def writeWhile (clock : Nat → Timestamp) (granted : Nat → Bool) : (left : Nat) → Produced → Except Failure Produced
  | 0, p => .ok p
  | left + 1, p =>
    if granted p.count then do
      let p ← write clock p
      writeWhile clock granted left p
    else .ok p

/-- Runs the producer on a history, where its stop signal is given after `killedAfter` ticks, if it is given at all: the
samples it wrote, and the signal afterwards. -/
def run (settings : ProducerSettings) (clock : Nat → Timestamp) (killedAfter : Option Nat) (signal : Signal)
    (h : History Sample) : Except Failure (Produced × Signal) := do
  let granted (n : Nat) : Bool := match killedAfter with
    | some k => !signal.killed && n < k
    | none => !signal.killed
  let produced ← writeWhile clock granted settings.samples.toNat ⟨0, h⟩
  .ok (produced, signal.kill)

/-- What happens while a producer runs on its timer. -/
inductive Moment where
  /-- The timer looked up. -/
  | look (l : Look)
  /-- The sample of a number was written. -/
  | wrote (n : Nat)
  deriving DecidableEq, Repr

/-- What a producer leaves, and what happened until then. -/
structure Course where
  produced : Produced
  moments : List Moment
  deriving Repr

/-- Writes up to `left` more samples, waiting for a tick before each, and ends with the first tick that is not granted. There
is no result where the looks end before. -/
def writeOnTicks (clock : Nat → Timestamp) : (left : Nat) → Timer → List Look → Course → Except Failure (Option Course)
  | 0, _, _, c => .ok (some c)
  | left + 1, t, looks, c =>
    match t.tick looks with
    | .error failure => .error failure
    | .ok none => .ok none
    | .ok (some ticked) =>
      let waited := c.moments ++ (looks.take (looks.length - ticked.looks.length)).map .look
      if ticked.goesOn then do
        let p ← write clock c.produced
        writeOnTicks clock left ticked.timer ticked.looks ⟨p, waited ++ [.wrote c.produced.count]⟩
      else .ok (some ⟨c.produced, waited⟩)

/-- The timer of a producer: its first tick is due at once. -/
def timer (settings : ProducerSettings) (handle created : Nat) : Except Failure Timer :=
  Timer.ofMillis handle settings.intervalMs.toNat created true

/-- Runs the producer on its timer: the samples it wrote, what happened meanwhile, and its stop signal afterwards. -/
def runOnTimer (settings : ProducerSettings) (clock : Nat → Timestamp) (handle created : Nat) (looks : List Look)
    (signal : Signal) (h : History Sample) : Except Failure (Option (Course × Signal)) := do
  let t ← timer settings handle created
  let course ← writeOnTicks clock settings.samples.toNat t looks ⟨⟨0, h⟩, []⟩
  .ok (course.map fun c => (c, signal.kill))

end Producer

end Lookback
