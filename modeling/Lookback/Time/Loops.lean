import Lookback.Time.Timer

/-!
# A set of paced loops

`Loops` holds everything that paced loops share: stop signals, timers, a stopwatch and the clock. Commands are carried
out one at a time, and nothing else happens meanwhile: a waiting timer sleeps until its tick is due, so the only thing
that lets time pass is a tick.
-/

namespace Lookback

/-- Stop signals, timers, a stopwatch and the clock. -/
structure Loops where
  now : Nat
  signals : Signals
  timers : List Timer
  watch : Stopwatch
  deriving Repr

/-- What can be done with loops. Handles and timers are numbered from 0 in the order in which they were made. -/
inductive LoopCommand where
  | newSignal
  | copyHandle (handle : Nat)
  | kill (handle : Nat)
  | isKilled (handle : Nat)
  | newTimer (handle millis : Nat) (immediate : Bool)
  | tick (timer : Nat)
  | setWait (timer millis : Nat)
  | waitMillis (timer : Nat)
  | resetWatch
  /-- Asks for the time on the stopwatch, in nanoseconds and in seconds. -/
  | elapsed
  deriving DecidableEq, Repr

/-- What a command answers. -/
inductive LoopAnswer where
  | done
  | number (n : Nat)
  | flag (b : Bool)
  | elapsed (nanos : Nat) (seconds : Float)
  /-- The command broke off. -/
  | failed (failure : Failure)
  deriving Repr

namespace Loops

/-- Loops with one signal, one handle to it and no timers, the stopwatch set at the beginning. -/
def initial : Loops := ⟨0, Signals.none.create, [], ⟨0⟩⟩

/-- What a timer sees if nothing happens while it waits: the moment it begins and, unless that ends the wait, the moment
its tick is due. One more look sets the tick after it. -/
def looks (now due : Nat) (killed : Bool) : List Look :=
  if killed || due ≤ now then [⟨killed, now⟩, ⟨killed, now⟩] else [⟨false, now⟩, ⟨false, due⟩, ⟨false, due⟩]

/-- When a wait ends that nothing disturbs. -/
def wokenAt (now due : Nat) (killed : Bool) : Nat := if killed then now else max now due

/-- Waits for the next tick of a timer. A tick that breaks off leaves the timer as it was. -/
def tick? (l : Loops) (timer : Nat) : Option (LoopAnswer × Loops) := do
  let t ← l.timers[timer]?
  let signal ← l.signals.get? t.handle
  match t.tick (looks l.now t.due signal.killed) with
  | .ok none => none
  | .ok (some ticked) =>
    some (.flag ticked.goesOn, { l with now := ticked.now, timers := l.timers.set timer ticked.timer })
  | .error failure => some (.failed failure, { l with now := wokenAt l.now t.due signal.killed })

/-- Makes a timer with a handle, which comes last among all timers. -/
def addTimer? (l : Loops) (handle wait : Nat) (immediate : Bool) : Option (LoopAnswer × Loops) := do
  let _ ← l.signals.get? handle
  match Timer.create handle wait l.now immediate with
  | .ok t => some (.number l.timers.length, { l with timers := l.timers ++ [t] })
  | .error failure => some (.failed failure, l)

/-- Changes the time between the ticks of a timer. -/
def setWait? (l : Loops) (timer wait : Nat) : Option (LoopAnswer × Loops) := do
  let t ← l.timers[timer]?
  some (.done, { l with timers := l.timers.set timer (t.setWait wait) })

/-- Carries out a command. There is no answer where a handle or timer has a number that none has. -/
def run? (l : Loops) : LoopCommand → Option (LoopAnswer × Loops)
  | .newSignal => some (.number l.signals.handles.length, { l with signals := l.signals.create })
  | .copyHandle handle => do
    let signals ← l.signals.copy? handle
    some (.number l.signals.handles.length, { l with signals })
  | .kill handle => do
    let signals ← l.signals.kill? handle
    some (.done, { l with signals })
  | .isKilled handle => do
    let signal ← l.signals.get? handle
    some (.flag signal.killed, l)
  | .newTimer handle millis immediate => l.addTimer? handle (millis * nanosPerMilli) immediate
  | .tick timer => l.tick? timer
  | .setWait timer millis => l.setWait? timer (millis * nanosPerMilli)
  | .waitMillis timer => do
    let t ← l.timers[timer]?
    some (.number t.waitMillis, l)
  | .resetWatch => some (.done, { l with watch := ⟨l.now⟩ })
  | .elapsed => some (.elapsed (l.watch.elapsed l.now) (l.watch.elapsedSeconds l.now), l)

/-- Carries out commands in order; one without an answer changes nothing. -/
def runAll (l : Loops) : List LoopCommand → List (Option LoopAnswer) × Loops
  | [] => ([], l)
  | c :: rest =>
    match l.run? c with
    | some (answer, l) =>
      let (answers, l) := l.runAll rest
      (some answer :: answers, l)
    | none =>
      let (answers, l) := l.runAll rest
      (none :: answers, l)

end Loops

end Lookback
