/-!
# Stop signals

A stop signal is given once and stays given. Loops hold handles to it: a handle can be copied, all copies refer to the
same signal, and a signal given through one of them is seen through all. `Signals` is a set of signals together with all
handles to them; handles are numbered in the order in which they were made.
-/

namespace Lookback

/-- A stop signal. -/
structure Signal where
  /-- Whether the signal was given. -/
  killed : Bool
  deriving DecidableEq, Repr

namespace Signal

/-- A signal that was not given yet. -/
def running : Signal := ⟨false⟩

/-- Gives the signal. -/
def kill (_ : Signal) : Signal := ⟨true⟩

end Signal

/-- Signals, and the handles to them. -/
structure Signals where
  /-- The signals, in the order in which they were made. -/
  signals : List Signal
  /-- For each handle the number of its signal. -/
  handles : List Nat
  deriving DecidableEq, Repr

namespace Signals

/-- No signals. -/
def none : Signals := ⟨[], []⟩

/-- Makes a new signal and the first handle to it, which comes last among all handles. -/
def create (s : Signals) : Signals := ⟨s.signals ++ [.running], s.handles ++ [s.signals.length]⟩

/-- Copies a handle; the copy comes last among all handles. -/
def copy? (s : Signals) (handle : Nat) : Option Signals := do
  let signal ← s.handles[handle]?
  some { s with handles := s.handles ++ [signal] }

/-- The signal that a handle refers to. -/
def get? (s : Signals) (handle : Nat) : Option Signal := do
  let signal ← s.handles[handle]?
  s.signals[signal]?

/-- Gives the signal that a handle refers to. -/
def kill? (s : Signals) (handle : Nat) : Option Signals := do
  let signal ← s.handles[handle]?
  some { s with signals := s.signals.modify signal Signal.kill }

end Signals

end Lookback
