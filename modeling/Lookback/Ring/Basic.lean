import Lookback.Cyclic
import Lookback.Memory

/-!
# Rings of slots

A `Ring` keeps the values written last. Its slots are filled one by one on the first pass and overwritten from the
first slot on afterwards; `nextSlot` says where the next value goes, `live` how many of the values are still to be seen
and `written` how many were ever inserted, modulo `2 ^ 64`. Clearing a ring only sets `live` to zero: the slots, the
position and the counter stay, so the next value goes where it would have gone anyway.

A live value is found by its distance from the oldest one (`fromOldest`) or from the newest one (`fromNewest`).
-/

namespace Lookback

/-- Slots for the values written last, with the counters that give them meaning. -/
structure Ring (α : Type) where
  /-- The values, by slot: slots not yet filled are not there. -/
  slots : Array α
  /-- The number of slots there are once all are filled. -/
  capacity : Nat
  /-- The slot of the next value. -/
  nextSlot : Nat
  /-- The number of live values. -/
  live : Nat
  /-- The number of insertions so far, modulo `2 ^ 64`. -/
  written : Nat
  deriving Repr

namespace Ring

variable {α : Type}

/-- A ring nothing was written to yet, its insertion counter starting at `written`. -/
def startingAt (capacity written : Nat) : Ring α :=
  ⟨#[], capacity, 0, 0, written⟩

/-- A ring nothing was written to yet. -/
def empty (capacity : Nat) : Ring α := startingAt capacity 0

/-- Creates a ring of values that take `valueSize` bytes each: it needs at least one slot, and room for all slots is set
aside at once. -/
def create (memory : Memory) (valueSize capacity : Nat) : Except Failure (Ring α) :=
  if capacity = 0 then .error .emptyRing
  else do
    memory.reserve capacity valueSize
    .ok (empty capacity)

/-- The last slot, which is the limit of the cycle of slots. -/
def lastSlot (r : Ring α) : Except Failure Nat := subtract r.capacity 1

/-- The slot of the value written last. -/
def newestSlot (r : Ring α) : Except Failure Nat := do
  let limit ← r.lastSlot
  Cyclic.prev .w64 r.nextSlot limit

/-- The slots with `a` in the next one: in place where that slot is filled, as a new slot where it is not. -/
def place (r : Ring α) (a : α) : Array α :=
  if h : r.nextSlot < r.slots.size then r.slots.set r.nextSlot a h else r.slots.push a

/-- The number of live values after one more was written. -/
def liveAfterInsert (r : Ring α) : Except Failure Nat :=
  if r.live < r.capacity then Width.w64.add r.live 1 else .ok r.live

/-- Writes a value, over the oldest one if all slots are live. -/
def insert (r : Ring α) (a : α) : Except Failure (Ring α) := do
  let limit ← r.lastSlot
  let live ← r.liveAfterInsert
  let nextSlot ← Cyclic.next .w64 r.nextSlot limit
  let written ← Cyclic.next .w64 r.written lastWord
  .ok ⟨r.place a, r.capacity, nextSlot, live, written⟩

/-- Writes values in order. -/
def insertMany (r : Ring α) : List α → Except Failure (Ring α)
  | [] => .ok r
  | a :: rest => do
    let r ← r.insert a
    r.insertMany rest

/-- Forgets all live values. -/
def clear (r : Ring α) : Ring α := { r with live := 0 }

/-- The value in a slot. -/
def slot (r : Ring α) (i : Nat) : Except Failure α :=
  match r.slots[i]? with
  | some a => .ok a
  | none => .error (.slotOutOfRange i r.slots.size)

/-- The value `i` places after the oldest live one. -/
def fromOldest (r : Ring α) (i : Nat) : Except Failure α :=
  if r.live ≤ i then .error (.outOfBounds i r.live)
  else do
    let limit ← r.lastSlot
    let newest ← r.newestSlot
    let span ← subtract r.live 1
    let oldest ← Cyclic.sub .w64 newest span limit
    let slot ← Cyclic.add .w64 oldest i limit
    r.slot slot

/-- The value `i` places before the newest live one. -/
def fromNewest (r : Ring α) (i : Nat) : Except Failure α :=
  if r.live ≤ i then .error (.outOfBounds i r.live)
  else do
    let limit ← r.lastSlot
    let newest ← r.newestSlot
    let slot ← Cyclic.sub .w64 newest i limit
    r.slot slot

end Ring

end Lookback
