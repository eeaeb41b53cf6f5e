import Lookback.Width

/-!
# Room in memory

A block of memory is set aside for a number of values of one size. A block that no address could reach the end of is
refused before anything is done (`checkAddressable`). Any other one the system is asked for, and it may have less to give
(`Memory.reserve`).
-/

namespace Lookback

/-- The most bytes that one block of memory can have. -/
def addressable : Nat := lastSigned

/-- Checks that a block for `count` values of `size` bytes each has an address for its end. -/
def checkAddressable (count size : Nat) : Except Failure Unit :=
  if addressable < count * size then .error .unaddressable else .ok ()

/-- The memory of a system. -/
structure Memory where
  /-- Whether a block of so many bytes is granted. -/
  grants : Nat → Bool

namespace Memory

/-- A memory that grants every block. -/
def boundless : Memory := ⟨fun _ => true⟩

/-- Sets room aside for `count` values of `size` bytes each. A block of no bytes need not be asked for. -/
def reserve (m : Memory) (count size : Nat) : Except Failure Unit := do
  checkAddressable count size
  if count * size = 0 || m.grants (count * size) then .ok () else .error (.notGranted (count * size))

end Memory

end Lookback
