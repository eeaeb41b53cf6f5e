import Lookback.Settings.Decode
import Lookback.Time.Timestamp

/-!
# Samples

A sample is one reading: a sequence number given by the producer, the time it was taken, and the value measured. The
producer writes synthetic ones, a sine of amplitude 100 with a period of about 63 samples.
-/

namespace Lookback

/-- One reading. -/
structure Sample where
  /-- The number the producer gave it, counted from 0. -/
  sequence : UInt64
  /-- When it was taken. -/
  time : Timestamp
  /-- The value measured. -/
  value : Float
  deriving Repr

namespace Sample

/-- The bytes that a sample takes in memory. -/
def size : Nat := 32

/-- The synthetic reading of a sequence number. -/
def synthetic (sequence : UInt64) (time : Timestamp) : Sample :=
  ⟨sequence, time, Float.sin (sequence.toFloat * 0.1) * 100⟩

/-- The value in millionths, as a whole number of 64 bits. -/
def micros (s : Sample) : Int := Double.nearestSigned (s.value * 1000000)

/-- Takes a sample from a table; all its fields must be there. -/
def decode? (v : Value) : Option Sample := do
  let t ← v.entries?
  let sequence ← t.required? "sequence" Value.word?
  let time ← t.required? "timestamp" fun v => v.text?.bind Timestamp.read?
  let value ← t.required? "value" Value.double?
  some { sequence, time, value }

end Sample

end Lookback
