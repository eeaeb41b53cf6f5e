import Lookback.Ring.Basic

/-!
# Windows of a ring

A window is a stretch of live values given by ages: the newest value has age 0, and `window start stop` holds the
values of ages `stop - 1` down to `start`, oldest first. In the slots such a stretch is one run, or two where it passes
the last slot, so it is copied as at most two spans. `windowInto` copies them one after the other to the end of a list.
-/

namespace Lookback

namespace Ring

variable {α : Type}

/-- The values of `length` slots from slot `start` on. -/
def span (r : Ring α) (start length : Nat) : Except Failure (List α) := do
  let stop ← Width.w64.add start length
  if stop ≤ r.slots.size then .ok (r.slots.extract start stop).toList
  else .error (.slotOutOfRange stop r.slots.size)

/-- How many of `length` slots from slot `start` on lie before the end of the ring, and how many at its beginning. -/
def split (r : Ring α) (start length : Nat) : Except Failure (Nat × Nat) := do
  let untilEnd ← subtract r.capacity start
  if untilEnd < length then
    let wrapped ← subtract length untilEnd
    .ok (untilEnd, wrapped)
  else
    .ok (length, 0)

/-- The live values of ages `stop - 1` down to `start`, oldest first. The window must hold at least one value and all of
it must be live. -/
def window (r : Ring α) (start stop : Nat) : Except Failure (List α) :=
  if stop ≤ start ∨ r.live < stop then .error (.unbackedWindow start stop r.live)
  else do
    let limit ← r.lastSlot
    let newest ← r.newestSlot
    let reach ← subtract stop 1
    let first ← Cyclic.sub .w64 newest reach limit
    let requested ← subtract stop start
    let (before, after) ← r.split first (min requested r.capacity)
    let older ← r.span first before
    let newer ← r.span 0 after
    let copied ← Width.w64.add before after
    if copied ≠ requested then .error (.shortWindow copied requested)
    else .ok (older ++ newer)

/-- What a copy leaves: the number of values copied, and the list they were copied to. -/
structure Copied (α : Type) where
  count : Nat
  target : List α
  deriving DecidableEq, Repr

/-- Copies a window to the end of `target`, one span after the other. Cut short, it leaves `target` as it is by then. -/
def windowInto (r : Ring α) (target : List α) (start stop : Nat) : Except (Interrupted (List α)) (Copied α) :=
  if stop ≤ start ∨ r.live < stop then .error ⟨target, .unbackedWindow start stop r.live⟩
  else do
    let limit ← Interrupted.guard target r.lastSlot
    let newest ← Interrupted.guard target r.newestSlot
    let reach ← Interrupted.guard target (subtract stop 1)
    let first ← Interrupted.guard target (Cyclic.sub .w64 newest reach limit)
    let requested ← Interrupted.guard target (subtract stop start)
    let (before, after) ← Interrupted.guard target (r.split first (min requested r.capacity))
    let older ← Interrupted.guard target (r.span first before)
    let target := target ++ older
    let newer ← Interrupted.guard target (r.span 0 after)
    let target := target ++ newer
    let copied ← Interrupted.guard target (Width.w64.add before after)
    if copied ≠ requested then .error ⟨target, .shortWindow copied requested⟩
    else .ok ⟨copied, target⟩

end Ring

end Lookback
