import Lookback.Width

/-!
# Integers in text

Unsigned integers are written with at least one decimal digit and may carry a plus sign; signed ones may carry either
sign. Nothing else is read: no blanks, no separators, no other digits. A value outside the range of the type asked for
is not read either.
-/

namespace Lookback

namespace Integer

/-- The value of a decimal digit. -/
def digit? (c : Char) : Option Nat :=
  if '0' ≤ c ∧ c ≤ '9' then some (c.toNat - '0'.toNat) else none

/-- The value of a digit in a base up to 16, letters in either case. -/
def digitIn? (base : Nat) (c : Char) : Option Nat :=
  let value :=
    if '0' ≤ c ∧ c ≤ '9' then c.toNat - '0'.toNat
    else if 'a' ≤ c ∧ c ≤ 'f' then c.toNat - 'a'.toNat + 10
    else if 'A' ≤ c ∧ c ≤ 'F' then c.toNat - 'A'.toNat + 10
    else base
  if value < base then some value else none

/-- The number that digits of a base write, after the digits that wrote `start`. -/
def ofDigits? (base : Nat) (start : Nat) : List Char → Option Nat
  | [] => some start
  | c :: rest => do
    let d ← digitIn? base c
    ofDigits? base (base * start + d) rest

/-- The number that one or more decimal digits write. -/
def natural? : List Char → Option Nat
  | [] => none
  | digits => ofDigits? 10 0 digits

/-- Reads an unsigned integer that is at most `limit`. -/
def unsigned? (limit : Nat) (text : String) : Option Nat := do
  let n ← match text.toList with
    | '+' :: digits => natural? digits
    | digits => natural? digits
  if n ≤ limit then some n else none

/-- Whether an integer fits 64 bits with a sign. -/
def fitsSigned (n : Int) : Bool := -lastSigned - 1 ≤ n && n ≤ lastSigned

/-- Reads a signed integer that fits 64 bits. -/
def signed? (text : String) : Option Int := do
  let n ← match text.toList with
    | '+' :: digits => (natural? digits).map Int.ofNat
    | '-' :: digits => (natural? digits).map fun n => -(n : Int)
    | digits => (natural? digits).map Int.ofNat
  if fitsSigned n then some n else none

end Integer

end Lookback
