import Lookback.Ring.Window

/-!
# Reading what is new

A reader keeps a cursor: a value that the insertion counter had. What was inserted since is unread, and as long as it is
live a read can fetch it. A cursor of 0, or one ahead of the counter, marks nothing; a read with it sees the newest
values. `read` answers a request with a batch and the cursor to go on with; `readInto` copies the batch to the end of a list.

* A windowed read takes the newest values and skips an older backlog; a continuous one takes the oldest unread values
  and goes on from there next time.
* An exact read takes a full batch or nothing; as long as it takes nothing, the cursor stays.
-/

namespace Lookback

/-- What a read does with more unread values than it may take. -/
inductive ReadMode where
  /-- Takes the newest ones and skips the rest. -/
  | windowed
  /-- Takes the oldest ones and leaves the rest for the next read. -/
  | continuous
  deriving DecidableEq, Repr

/-- What a reader asks for. -/
structure Request where
  /-- The most values to take. -/
  amount : Nat
  /-- Which values to take when there are more. -/
  mode : ReadMode
  /-- Whether to take nothing unless `amount` values are unread. -/
  exact : Bool
  deriving DecidableEq, Repr

/-- The window of ages a request takes when the newest `available` values are open to it. -/
def Request.window (q : Request) (available : Nat) : Nat × Nat :=
  match q.mode with
  | .windowed => (0, min available q.amount)
  | .continuous => (available - q.amount, available)

/-- What a read brings: a batch, oldest value first, and the cursor to go on with. -/
structure Reading (α : Type) where
  batch : List α
  cursor : Nat
  deriving DecidableEq, Repr

/-- What a read leaves that copies its batch to the end of a list. -/
structure Appended (α : Type) where
  /-- The number of values copied. -/
  count : Nat
  /-- The list, with the batch at its end. -/
  target : List α
  /-- The cursor to go on with. -/
  cursor : Nat
  deriving DecidableEq, Repr

namespace Ring

variable {α : Type}

/-- The number of live values inserted since the counter stood at `cursor`. -/
def unread (r : Ring α) (cursor : Nat) : Except Failure Nat := do
  let since ← Cyclic.sub .w64 r.written cursor lastWord
  .ok (min since r.live)

/-- The number of newest values that are open to a request: the unread ones for a cursor that marks a past insertion,
and as many as are asked for otherwise, in both cases at most the live ones. -/
def available (r : Ring α) (amount cursor : Nat) : Except Failure Nat :=
  if 0 < cursor ∧ cursor ≤ r.written then r.unread cursor else .ok (min amount r.live)

/-- Whether a request is exact and fewer values are unread than it asks for. -/
def fallsShort (r : Ring α) (q : Request) (cursor : Nat) : Except Failure Bool :=
  if q.exact then do
    let unread ← r.unread cursor
    .ok (decide (unread < q.amount))
  else .ok false

/-- Answers a request. -/
def read (r : Ring α) (q : Request) (cursor : Nat) : Except Failure (Reading α) :=
  if q.amount = 0 then .ok ⟨[], r.written⟩
  else do
    if ← r.fallsShort q cursor then .ok ⟨[], cursor⟩
    else
      let available ← r.available q.amount cursor
      if available = 0 then .ok ⟨[], r.written⟩
      else
        let (start, stop) := q.window available
        let batch ← r.window start stop
        let cursor ← Cyclic.sub .w64 r.written start lastWord
        .ok ⟨batch, cursor⟩

/-- Answers a request by copying the batch to the end of `target`. Cut short, it leaves `target` as it is by then. -/
def readInto (r : Ring α) (target : List α) (q : Request) (cursor : Nat) : Except (Interrupted (List α)) (Appended α) :=
  if q.amount = 0 then .ok ⟨0, target, r.written⟩
  else do
    if ← Interrupted.guard target (r.fallsShort q cursor) then .ok ⟨0, target, cursor⟩
    else
      let available ← Interrupted.guard target (r.available q.amount cursor)
      if available = 0 then .ok ⟨0, target, r.written⟩
      else
        let (start, stop) := q.window available
        let copied ← r.windowInto target start stop
        let cursor ← Interrupted.guard copied.target (Cyclic.sub .w64 r.written start lastWord)
        .ok ⟨copied.count, copied.target, cursor⟩

end Ring

end Lookback
