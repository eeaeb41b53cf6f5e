import Lookback.Time.Loops

/-!
# Loops in threads of their own

`Loops` carries out one command after the other. Here a tick need not be over before something else happens: it is begun
(`enter`), and goes on whenever its timer looks up (`look`). Between its looks other threads make timers, copy handles, give
signals and tick timers of their own, and time passes. A waiting timer may look up at any moment, woken by its signal, by its
alarm or for no reason, so the order of all steps is left open.

Threads share signals, never a timer: a timer in the middle of a tick answers no command. A step that cannot be taken changes
nothing; `transcript` lists the steps with their answers, which is all that can be seen from outside.
-/

namespace Lookback

/-- Loops, some of which are waiting for their next tick. -/
structure Threads where
  loops : Loops
  /-- For each timer in the middle of a tick, what it has seen since the tick began. -/
  seen : Nat → Option (List Look)

/-- What can happen while loops run. Waits are in nanoseconds. -/
inductive ThreadStep where
  /-- A command is carried out, and nothing else happens meanwhile. -/
  | command (c : LoopCommand)
  | newTimer (handle wait : Nat) (immediate : Bool)
  | setWait (timer wait : Nat)
  /-- Time passes, as far as the clock goes. -/
  | pass (nanos : Nat)
  /-- A tick begins. -/
  | enter (timer : Nat)
  /-- A timer in the middle of a tick looks up. -/
  | look (timer : Nat)
  deriving DecidableEq, Repr

/-- What a step answers. -/
inductive ThreadAnswer where
  | done
  /-- The answer of a command. -/
  | command (a : LoopAnswer)
  /-- The timer goes to sleep. -/
  | asleep
  /-- The wait of the timer is over. -/
  | awake
  /-- The tick is over. -/
  | returned (goesOn : Bool)
  /-- The tick broke off. -/
  | failed (failure : Failure)
  deriving Repr

/-- The timer that a command works on. -/
def LoopCommand.timer? : LoopCommand → Option Nat
  | tick timer | setWait timer _ | waitMillis timer => some timer
  | _ => none

namespace Threads

/-- Nothing was made yet, and the clock says `now`. -/
def fresh (now : Nat) : Threads := ⟨⟨now, Signals.none, [], ⟨now⟩⟩, fun _ => none⟩

/-- Sets what a timer has seen. -/
def setSeen (w : Threads) (timer : Nat) (looks : Option (List Look)) : Threads :=
  { w with seen := fun i => if i = timer then looks else w.seen i }

/-- Whether a timer is in the middle of a tick. -/
def busy (w : Threads) (timer : Nat) : Bool := (w.seen timer).isSome

/-- The answer of a command, and what it leaves. -/
def answered (w : Threads) (result : Option (LoopAnswer × Loops)) : Option (ThreadAnswer × Threads) := do
  let (answer, loops) ← result
  some (.command answer, { w with loops })

/-- A timer in the middle of a tick looks up. The tick is over with the look that sets the time of the next one; where that
fails the timer stays as it was. -/
def look? (w : Threads) (timer : Nat) : Option (ThreadAnswer × Threads) := do
  let looks ← w.seen timer
  let t ← w.loops.timers[timer]?
  let signal ← w.loops.signals.get? t.handle
  let looks := looks ++ [⟨signal.killed, w.loops.now⟩]
  match t.tick looks with
  | .ok (some ticked) =>
    let loops := { w.loops with timers := w.loops.timers.set timer ticked.timer }
    some (.returned ticked.goesOn, { w with loops }.setSeen timer none)
  | .ok none =>
    let answer := if (waitUntil t.due looks).isSome then ThreadAnswer.awake else .asleep
    some (answer, w.setSeen timer (some looks))
  | .error failure => some (.failed failure, w.setSeen timer none)

/-- Takes a step, if it can be taken. -/
def step? (w : Threads) : ThreadStep → Option (ThreadAnswer × Threads)
  | .command c => if c.timer?.any w.busy then none else w.answered (w.loops.run? c)
  | .newTimer handle wait immediate => w.answered (w.loops.addTimer? handle wait immediate)
  | .setWait timer wait => if w.busy timer then none else w.answered (w.loops.setWait? timer wait)
  | .pass nanos => do
    let now ← (momentAfter w.loops.now nanos).toOption
    some (.done, { w with loops := { w.loops with now } })
  | .enter timer =>
    if w.busy timer then none
    else do
      let _ ← w.loops.timers[timer]?
      some (.done, w.setSeen timer (some []))
  | .look timer => w.look? timer

/-- What a step answers. -/
def answer (w : Threads) (s : ThreadStep) : Option ThreadAnswer := (w.step? s).map Prod.fst

/-- What a step leaves. -/
def next (w : Threads) (s : ThreadStep) : Threads :=
  match w.step? s with
  | some (_, w') => w'
  | none => w

/-- What steps leave. -/
def after (w : Threads) (steps : List ThreadStep) : Threads := steps.foldl next w

/-- Steps with their answers. -/
def transcript (w : Threads) : List ThreadStep → List (ThreadStep × Option ThreadAnswer)
  | [] => []
  | s :: rest => (s, w.answer s) :: (w.next s).transcript rest

end Threads

end Lookback
