import Lookback.Number.Double
import Lookback.Time.Signals

/-!
# Timers and stopwatches

A timer paces a loop: each tick comes no earlier than one wait after the tick before it, and a stop signal ends all
waiting. Time is an input here. A waiting timer looks up now and then, woken by its alarm or for no reason at all, and
each `Look` tells it whether the signal was given and what the clock says. `waitUntil` says what it makes of a series
of looks; `Timer.tick` goes on from there to set the time of the next tick by one more look at the clock.

Times are in nanoseconds since the zero of the clock. The clock counts its seconds in a 64-bit integer with a sign, so there is
a last moment (`lastMoment`), and a wait may lead past it. A tick sets the time of the next one whatever ended its wait, so even
one that the stop signal ended breaks off if that time cannot be told (`momentAfter`).
-/

namespace Lookback

/-- What a timer sees when it looks up. -/
structure Look where
  /-- Whether the stop signal was given. -/
  killed : Bool
  /-- What the clock says. -/
  now : Nat
  deriving DecidableEq, Repr

/-- Why a wait ended. -/
inductive Wake where
  /-- The stop signal was given. -/
  | stopped
  /-- The time had come when the clock said so. -/
  | due (now : Nat)
  deriving DecidableEq, Repr

/-- Waits for a time or for the stop signal, whichever a look shows first; the signal counts before the time. The result
is what ended the wait and the looks that are left, or nothing if the looks end before the wait does. -/
def waitUntil (deadline : Nat) : List Look → Option (Wake × List Look)
  | [] => none
  | look :: rest =>
    if look.killed then some (.stopped, rest)
    else if deadline ≤ look.now then some (.due look.now, rest)
    else waitUntil deadline rest

/-- The number of nanoseconds in a millisecond. -/
def nanosPerMilli : Nat := 1000000

/-- The number of nanoseconds in a second. -/
def nanosPerSecond : Nat := 1000000000

/-- The last moment that the clock can tell. -/
def lastMoment : Nat := lastSigned * nanosPerSecond + 999999999

/-- The moment at the end of a wait. -/
def momentAfter (now wait : Nat) : Except Failure Nat :=
  if lastMoment < now + wait then .error .pastClock else .ok (now + wait)

theorem momentAfter_eq_ok {now wait : Nat} (h : now + wait ≤ lastMoment) : momentAfter now wait = .ok (now + wait) :=
  if_neg (Nat.not_lt_of_le h)

theorem momentAfter_eq_error {now wait : Nat} (h : lastMoment < now + wait) : momentAfter now wait = .error .pastClock :=
  if_pos h

/-- A timer of a loop. -/
structure Timer where
  /-- The handle of its stop signal. -/
  handle : Nat
  /-- The time between ticks. -/
  wait : Nat
  /-- When the next tick is due. -/
  due : Nat
  deriving DecidableEq, Repr

namespace Timer

/-- Makes a timer. Its first tick is due at once, or after one wait. -/
def create (handle wait now : Nat) (immediate : Bool) : Except Failure Timer := do
  let due ← if immediate then .ok now else momentAfter now wait
  .ok ⟨handle, wait, due⟩

/-- Makes a timer with its wait in milliseconds. -/
def ofMillis (handle millis now : Nat) (immediate : Bool) : Except Failure Timer :=
  create handle (millis * nanosPerMilli) now immediate

/-- Changes the time between ticks. The next tick stays due when it was. -/
def setWait (t : Timer) (wait : Nat) : Timer := { t with wait }

/-- The time between ticks in whole milliseconds. -/
def waitMillis (t : Timer) : Nat := t.wait / nanosPerMilli

/-- What a tick leaves. -/
structure Ticked where
  /-- Whether the loop goes on. -/
  goesOn : Bool
  /-- The timer, its next tick due one wait from now. -/
  timer : Timer
  /-- What the clock said when that was set. -/
  now : Nat
  /-- The looks that are left. -/
  looks : List Look
  deriving DecidableEq, Repr

/-- Waits for the next tick, and sets the time of the one after it by the next look at the clock. There is no result where the
looks end before. -/
def tick (t : Timer) (looks : List Look) : Except Failure (Option Ticked) :=
  match waitUntil t.due looks with
  | none | some (_, []) => .ok none
  | some (wake, look :: rest) => do
    let due ← momentAfter look.now t.wait
    .ok (some ⟨wake ≠ .stopped, { t with due }, look.now, rest⟩)

end Timer

/-- Measures the time since it was set. -/
structure Stopwatch where
  start : Nat
  deriving DecidableEq, Repr

namespace Stopwatch

/-- The nanoseconds since the stopwatch was set. -/
def elapsed (w : Stopwatch) (now : Nat) : Nat := now - w.start

/-- The time since the stopwatch was set, in seconds. -/
def elapsedSeconds (w : Stopwatch) (now : Nat) : Float := Double.ofDecimal ⟨w.elapsed now, -9⟩

end Stopwatch

end Lookback
