import Lookback.Ring.Read

/-!
# Histories

A `History` is the public face of a ring: the most recent values of a stream, up to a fixed number. One side edits it
(`Edit`: insert, insert many, clear); any number of readers look at single values by their place, at the newest few
(`latest`), or fetch what is new since their own cursor (`read`, `readInto`). A read never changes the history.

A history whose counter still stands at 0 hands out the cursor 0, which every read takes as "no cursor": a reader that
wants everything from now on takes its cursor after the first insertion.
-/

namespace Lookback

/-- The most recent values of a stream. -/
structure History (α : Type) where
  ring : Ring α
  deriving Repr

/-- The size of a history, as settings give it. -/
structure BufferSettings where
  /-- The number of values kept before the oldest is overwritten. -/
  capacity : UInt64
  deriving DecidableEq, Repr

namespace BufferSettings

/-- The capacity of a history for which none is set. -/
def standard : BufferSettings := ⟨3000⟩

/-- Settings describe a usable history if it has at least one slot. -/
def validate (b : BufferSettings) : Except Failure Unit :=
  if b.capacity = 0 then .error .zeroCapacity else .ok ()

end BufferSettings

namespace History

variable {α β : Type}

/-- A history nothing was written to yet, its insertion counter starting at `written`. -/
def startingAt (capacity written : Nat) : History α := ⟨Ring.startingAt capacity written⟩

/-- A history nothing was written to yet. -/
def empty (capacity : Nat) : History α := startingAt capacity 0

/-- Creates a history that keeps up to `capacity` values of `valueSize` bytes each. -/
def create (memory : Memory) (valueSize capacity : Nat) : Except Failure (History α) :=
  if capacity = 0 then .error .emptyHistory
  else do
    let ring ← Ring.create memory valueSize capacity
    .ok ⟨ring⟩

/-- Creates a history of the size that settings give. -/
def ofSettings (memory : Memory) (valueSize : Nat) (b : BufferSettings) : Except Failure (History α) :=
  create memory valueSize b.capacity.toNat

/-- Creates a history of the size that settings give, refusing settings that are not valid. -/
def ofValidSettings (memory : Memory) (valueSize : Nat) (b : BufferSettings) : Except Failure (History α) := do
  b.validate
  ofSettings memory valueSize b

/-! ## Writing -/

/-- Inserts a value, over the oldest one if the history is full. -/
def insert (h : History α) (a : α) : Except Failure (History α) := do
  let ring ← h.ring.insert a
  .ok ⟨ring⟩

/-- Inserts values in order. -/
def insertMany (h : History α) (values : List α) : Except Failure (History α) := do
  let ring ← h.ring.insertMany values
  .ok ⟨ring⟩

/-- Drops all values. Cursors stay valid and see only later insertions. -/
def clear (h : History α) : History α := ⟨h.ring.clear⟩

/-- One change of a history. -/
inductive Edit (α : Type) where
  | insert (value : α)
  | insertMany (values : List α)
  | clear
  deriving Repr

/-- Makes one change. -/
def edit (h : History α) : Edit α → Except Failure (History α)
  | .insert value => h.insert value
  | .insertMany values => h.insertMany values
  | .clear => .ok h.clear

/-- Makes changes in order. -/
def edits (h : History α) : List (Edit α) → Except Failure (History α)
  | [] => .ok h
  | e :: rest => do
    let h ← h.edit e
    h.edits rest

/-! ## Looking -/

/-- The number of values held. -/
def size (h : History α) : Nat := h.ring.live

/-- The most values that can be held. -/
def capacity (h : History α) : Nat := h.ring.capacity

/-- The cursor of a reader that has seen everything up to now. -/
def cursor (h : History α) : Nat := h.ring.written

/-- Whether no value is held. -/
def isEmpty (h : History α) : Bool := h.size == 0

/-- Whether every slot holds a live value. -/
def isFull (h : History α) : Bool := h.size == h.capacity

/-- The share of the slots that hold a live value. -/
def fillRatio (h : History α) : Float := h.size.toUInt64.toFloat / h.capacity.toUInt64.toFloat

/-- One line that shows the counters of a history. -/
def describe (h : History α) : String :=
  s!"RingBuffer \x7b capacity: {h.capacity}, size: {h.size}, base_id: {h.cursor} \x7d"

/-- The value `i` places after the oldest one. -/
def fromOldest (h : History α) (i : Nat) : Except Failure α := h.ring.fromOldest i

/-- The value `i` places before the newest one. -/
def fromNewest (h : History α) (i : Nat) : Except Failure α := h.ring.fromNewest i

/-- What `f` makes of the value `i` places before the newest one. -/
def mapFromNewest (h : History α) (f : α → β) (i : Nat) : Except Failure β := do
  let value ← h.fromNewest i
  .ok (f value)

/-! ## Reading with a cursor -/

/-- The number of values inserted since `cursor` that are still held. -/
def unread (h : History α) (cursor : Nat) : Except Failure Nat := h.ring.unread cursor

/-- Answers a request from a reader at `cursor`. -/
def read (h : History α) (q : Request) (cursor : Nat) : Except Failure (Reading α) := h.ring.read q cursor

/-- Answers a request and copies the batch to the end of `target`. -/
def readInto (h : History α) (target : List α) (q : Request) (cursor : Nat) : Except (Interrupted (List α)) (Appended α) :=
  h.ring.readInto target q cursor

/-- The newest `amount` values, oldest first. -/
def latest (h : History α) (amount : Nat) : Except Failure (List α) := do
  let reading ← h.read ⟨amount, .windowed, false⟩ 0
  .ok reading.batch

end History

end Lookback
