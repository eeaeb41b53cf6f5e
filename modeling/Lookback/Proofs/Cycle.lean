import Lookback.Cyclic

/-!
# Moves on a cycle, in exact integers

The cycle with limit `l` has `l + 1` positions, so every move on it is addition or subtraction modulo `l + 1`. The
statements that end in `_mod` say the same of a position that stands for a number, `n % (l + 1)`: slots stand for places
in the past of a ring in this way, and the insertion counter for the number of insertions.
-/

namespace Lookback

namespace Cyclic

variable {w : Width} {a b n limit : Nat}

theorem requireWithin_eq_ok (h : a ≤ limit) : requireWithin a limit = .ok () :=
  if_pos h

/-- A sum that passes the limit once comes back by the length of the cycle. -/
theorem mod_of_past (h : limit < n) (h' : n ≤ limit + limit + 1) : n % (limit + 1) = n - (limit + 1) := by
  rw [Nat.mod_eq_sub_mod h, Nat.mod_eq_of_lt]
  omega

/-- `add` adds modulo the length of the cycle. -/
theorem add_eq_ok (ha : a ≤ limit) (hb : b ≤ limit) (hw : limit ≤ w.maxValue) :
    add w a b limit = .ok ((a + b) % (limit + 1)) := by
  unfold add
  rw [requireWithin_eq_ok ha, requireWithin_eq_ok hb, subtract_eq_ok ha]
  simp only [ok_bind]
  by_cases h : limit - a < b
  · have hpast : b - (limit - a) - 1 = a + b - (limit + 1) := by omega
    rw [if_pos h, subtract_eq_ok (Nat.le_of_lt h), ok_bind, subtract_eq_ok (by omega), hpast,
      mod_of_past (by omega) (by omega)]
  · rw [if_neg h, Width.add_eq_ok (by omega), Nat.mod_eq_of_lt (by omega)]

/-- `sub` subtracts modulo the length of the cycle. -/
theorem sub_eq_ok (ha : a ≤ limit) (hb : b ≤ limit) (hw : limit ≤ w.maxValue) :
    sub w a b limit = .ok ((a + (limit + 1) - b) % (limit + 1)) := by
  unfold sub
  rw [requireWithin_eq_ok ha, requireWithin_eq_ok hb]
  simp only [ok_bind]
  by_cases h : a < b
  · have hsum : limit - b + a + 1 = a + (limit + 1) - b := by omega
    rw [if_pos h, subtract_eq_ok hb, ok_bind, Width.add_eq_ok (by omega), ok_bind, Width.add_eq_ok (by omega), hsum,
      Nat.mod_eq_of_lt (by omega)]
  · have hdiff : a + (limit + 1) - b - (limit + 1) = a - b := by omega
    rw [if_neg h, subtract_eq_ok (by omega), mod_of_past (by omega) (by omega), hdiff]

/-- `next` adds one modulo the length of the cycle, also where that length is one. -/
theorem next_eq_ok (ha : a ≤ limit) (hw : limit ≤ w.maxValue) : next w a limit = .ok ((a + 1) % (limit + 1)) := by
  unfold next
  rw [requireWithin_eq_ok ha, ok_bind]
  by_cases h : limit ≤ a
  · have hlast : a = limit := Nat.le_antisymm ha h
    rw [if_pos h, hlast, Nat.mod_self]
  · rw [if_neg h, add_eq_ok ha (by omega) hw]

/-- `prev` subtracts one modulo the length of the cycle, also where that length is one. -/
theorem prev_eq_ok (ha : a ≤ limit) (hw : limit ≤ w.maxValue) : prev w a limit = .ok ((a + limit) % (limit + 1)) := by
  unfold prev
  rw [requireWithin_eq_ok ha, ok_bind]
  by_cases h : a = 0
  · rw [if_pos h, h, Nat.zero_add, Nat.mod_eq_of_lt (Nat.lt_succ_self limit)]
  · rw [if_neg h, sub_eq_ok ha (by omega) hw]
    rfl

/-! ## Positions that stand for numbers -/

theorem mod_le_limit (n limit : Nat) : n % (limit + 1) ≤ limit :=
  Nat.le_of_lt_succ (Nat.mod_lt n (Nat.succ_pos limit))

theorem add_mod (hb : b ≤ limit) (hw : limit ≤ w.maxValue) :
    add w (n % (limit + 1)) b limit = .ok ((n + b) % (limit + 1)) := by
  rw [add_eq_ok (mod_le_limit n limit) hb hw, Nat.mod_add_mod]

theorem next_mod (hw : limit ≤ w.maxValue) : next w (n % (limit + 1)) limit = .ok ((n + 1) % (limit + 1)) := by
  rw [next_eq_ok (mod_le_limit n limit) hw, Nat.mod_add_mod]

theorem sub_mod (hb : b ≤ limit) (hw : limit ≤ w.maxValue) :
    sub w (n % (limit + 1)) b limit = .ok ((n + (limit + 1) - b) % (limit + 1)) := by
  have hmove : ∀ m, m + (limit + 1) - b = m + (limit + 1 - b) := by intro m; omega
  rw [sub_eq_ok (mod_le_limit n limit) hb hw, hmove, hmove, Nat.mod_add_mod]

/-- Going back no further than the number a position stands for never passes zero. -/
theorem sub_mod_of_le (hb : b ≤ limit) (hn : b ≤ n) (hw : limit ≤ w.maxValue) :
    sub w (n % (limit + 1)) b limit = .ok ((n - b) % (limit + 1)) := by
  have hmove : n + (limit + 1) - b = n - b + (limit + 1) := by omega
  rw [sub_mod hb hw, hmove, Nat.add_mod_right]

theorem prev_mod (hn : 0 < n) (hw : limit ≤ w.maxValue) :
    prev w (n % (limit + 1)) limit = .ok ((n - 1) % (limit + 1)) := by
  have hmove : n + limit = n - 1 + (limit + 1) := by omega
  rw [prev_eq_ok (mod_le_limit n limit) hw, Nat.mod_add_mod, hmove, Nat.add_mod_right]

/-- Numbers that follow one another stand for positions that follow one another until the cycle ends. -/
theorem mod_add_of_lt {length : Nat} (h : n % length + b < length) : (n + b) % length = n % length + b := by
  rw [← Nat.mod_add_mod, Nat.mod_eq_of_lt h]

/-- Numbers less than the length of the cycle apart stand for different positions. -/
theorem mod_ne_of_lt (hab : a < b) (hba : b ≤ a + limit) : a % (limit + 1) ≠ b % (limit + 1) := by
  intro heq
  have hzero : (b - a) % (limit + 1) = 0 := Nat.sub_mod_eq_zero_of_mod_eq heq.symm
  rw [Nat.mod_eq_of_lt (by omega)] at hzero
  omega

end Cyclic

end Lookback
