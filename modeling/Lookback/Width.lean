import Lookback.Failure

/-!
# Machine words

The library computes in natural numbers and checks at every step that the result fits the word it stands for. `Width`
names the word sizes; `Width.add` and `subtract` are the checked operations. A result `.ok n` therefore says that no
intermediate value left the range of its word.
-/

namespace Lookback

/-- The sizes of machine word that positions and counters come in. -/
inductive Width where
  | w8 | w16 | w32 | w64 | w128
  deriving DecidableEq, Repr

namespace Width

/-- The largest value of a word: all its bits are ones. -/
def maxValue : Width → Nat
  | w8 => 0xFF
  | w16 => 0xFFFF
  | w32 => 0xFFFFFFFF
  | w64 => 0xFFFFFFFFFFFFFFFF
  | w128 => 0xFFFFFFFFFFFFFFFFFFFFFFFFFFFFFFFF

/-- Adds two words; fails if the sum does not fit. -/
def add (w : Width) (x y : Nat) : Except Failure Nat :=
  if x + y ≤ w.maxValue then .ok (x + y) else .error (.overflow .add)

end Width

/-- Subtracts one word from another, of whatever width; fails if the difference is negative. -/
def subtract (x y : Nat) : Except Failure Nat :=
  if y ≤ x then .ok (x - y) else .error (.overflow .subtract)

/-- The largest 64-bit word: the limit on which insertion counters and cursors wrap. -/
def lastWord : Nat := Width.w64.maxValue

/-- The largest 64-bit integer with a sign; the least lies one further from zero. -/
def lastSigned : Nat := 0x7FFFFFFFFFFFFFFF

/-- Positions on the cycle of all 64-bit words fit their word. -/
theorem lastWord_le : lastWord ≤ Width.w64.maxValue :=
  Nat.le_refl _

theorem Width.add_eq_ok {w : Width} {x y : Nat} (h : x + y ≤ w.maxValue) : w.add x y = .ok (x + y) :=
  if_pos h

theorem Width.add_eq_error {w : Width} {x y : Nat} (h : w.maxValue < x + y) : w.add x y = .error (.overflow .add) :=
  if_neg (Nat.not_le_of_lt h)

theorem subtract_eq_ok {x y : Nat} (h : y ≤ x) : subtract x y = .ok (x - y) :=
  if_pos h

end Lookback
