import Lookback.Width

/-!
# Reports

A `Report` sums up what a consumer received. It goes by the sequence numbers of the samples in the order they arrive:
one that does not exceed the number before it is a duplicate; one that exceeds it by more than one opens a gap, in which
the numbers between them were skipped. All counters are 64-bit words.

Accounting stops at a counter that would overflow, and the report stays as it is at that moment (`Interrupted`): the
samples before are counted one by one, but the batch is not.
-/

namespace Lookback

/-- What one consumer received. -/
structure Report where
  name : String
  /-- Samples received. -/
  received : Nat
  /-- Polls that brought some. -/
  batches : Nat
  /-- Jumps in the sequence numbers. -/
  gaps : Nat
  /-- Numbers passed over in those jumps. -/
  skipped : Nat
  /-- Samples received again, or after a later one. -/
  duplicates : Nat
  /-- The number of the first sample. -/
  first : Option Nat
  /-- The number of the last sample. -/
  last : Option Nat
  deriving DecidableEq, Repr

namespace Report

/-- The report of a consumer that received nothing. -/
def empty (name : String) : Report := ⟨name, 0, 0, 0, 0, 0, none, none⟩

/-- Counts a sample that does not exceed the one before it. -/
def addDuplicate (r : Report) : Except (Interrupted Report) Report := do
  let duplicates ← Interrupted.guard r (Width.w64.add r.duplicates 1)
  .ok { r with duplicates }

/-- Counts a jump from `last` to a later number. -/
def addGap (r : Report) (last sequence : Nat) : Except (Interrupted Report) Report := do
  let gaps ← Interrupted.guard r (Width.w64.add r.gaps 1)
  let r := { r with gaps }
  let distance ← Interrupted.guard r (subtract sequence last)
  let missed ← Interrupted.guard r (subtract distance 1)
  let skipped ← Interrupted.guard r (Width.w64.add r.skipped missed)
  .ok { r with skipped }

/-- Compares a sample with the one before it, if there was one. -/
def compare (r : Report) (sequence : Nat) : Except (Interrupted Report) Report :=
  match r.last with
  | none => .ok r
  | some last =>
    if sequence ≤ last then r.addDuplicate
    else do
      let following ← Interrupted.guard r (Width.w64.add last 1)
      if following < sequence then r.addGap last sequence else .ok r

/-- Accounts for one sample. -/
def note (r : Report) (sequence : Nat) : Except (Interrupted Report) Report := do
  let r ← r.compare sequence
  .ok { r with first := some (r.first.getD sequence), last := some sequence }

/-- Accounts for samples one after the other. -/
def noteAll (r : Report) : List Nat → Except (Interrupted Report) Report
  | [] => .ok r
  | sequence :: rest => do
    let r ← r.note sequence
    r.noteAll rest

/-- Accounts for a batch; an empty one leaves no trace. -/
def record (r : Report) (batch : List Nat) : Except (Interrupted Report) Report :=
  if batch.isEmpty then .ok r
  else do
    let r ← r.noteAll batch
    let received ← Interrupted.guard r (Width.w64.add r.received batch.length)
    let r := { r with received }
    let batches ← Interrupted.guard r (Width.w64.add r.batches 1)
    .ok { r with batches }

/-- Accounts for batches one after the other. -/
def recordAll (r : Report) : List (List Nat) → Except (Interrupted Report) Report
  | [] => .ok r
  | batch :: rest => do
    let r ← r.record batch
    r.recordAll rest

/-- One line that sums up a report. -/
def summary (r : Report) : String :=
  s!"{r.name}: {r.received} samples in {r.batches} batches, {r.gaps} gaps ({r.skipped} skipped), {r.duplicates} duplicates"

end Report

end Lookback
