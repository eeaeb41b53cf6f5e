import Lookback.Proofs.Cycle
import Lookback.Ring.Basic

/-!
# The past a ring records

The slots of a ring show only the end of its past, in an order that turns with every insertion. `Ring.Records` ties them
to the past itself: the list of all values ever inserted. The value at place `j` of the past went to slot
`j % capacity` and is found there until `capacity` values came after it. Which of the slots are live is a number on its
own, since clearing a ring leaves the slots, the next slot and the counter where they are.

Every ring starts out recording an empty past (`records_startingAt`), an insertion adds its value to the past
(`Records.insert`), and clearing keeps the past (`Records.clear`).
-/

namespace Lookback

namespace Ring

variable {α : Type} {r : Ring α} {start recent : Nat} {past : List α}

/-- `r` was filled with the values of `past`, the last `recent` of them since it was last cleared, and its counter began at
`start`. -/
structure Records (r : Ring α) (start : Nat) (past : List α) (recent : Nat) : Prop where
  capacity_pos : 0 < r.capacity
  capacity_le : r.capacity ≤ lastWord
  recent_le : recent ≤ past.length
  size_eq : r.slots.size = min past.length r.capacity
  nextSlot_eq : r.nextSlot = past.length % r.capacity
  live_eq : r.live = min recent r.capacity
  written_eq : r.written = (start + past.length) % (lastWord + 1)
  slot_eq : ∀ j, j < past.length → past.length ≤ j + r.capacity → r.slots[j % r.capacity]? = past[j]?

/-- A ring nothing was written to yet records an empty past. -/
theorem records_startingAt {capacity : Nat} (hpos : 0 < capacity) (hfit : capacity ≤ lastWord)
    (hstart : start ≤ lastWord) : (startingAt capacity start : Ring α).Records start [] 0 where
  capacity_pos := hpos
  capacity_le := hfit
  recent_le := Nat.le_refl 0
  size_eq := by simp [startingAt]
  nextSlot_eq := by simp [startingAt]
  live_eq := by simp [startingAt]
  written_eq := (Nat.mod_eq_of_lt (Nat.lt_succ_of_le hstart)).symm
  slot_eq := by intro j hj; simp at hj

/-- Clearing a ring keeps its past. -/
theorem Records.clear (h : r.Records start past recent) : r.clear.Records start past 0 :=
  { h with recent_le := Nat.zero_le _, live_eq := (Nat.zero_min _).symm }

/-! ## The cycle of slots -/

namespace Records

/-- The length of the cycle of slots. -/
theorem lastSlot_add_one (h : r.Records start past recent) : r.capacity - 1 + 1 = r.capacity :=
  Nat.sub_add_cancel h.capacity_pos

theorem lastSlot_le (h : r.Records start past recent) : r.capacity - 1 ≤ Width.w64.maxValue :=
  Nat.le_trans (Nat.sub_le _ _) h.capacity_le

theorem lastSlot_eq_ok (h : r.Records start past recent) : r.lastSlot = .ok (r.capacity - 1) :=
  subtract_eq_ok h.capacity_pos

/-- The slot after that of place `n` is that of place `n + 1`. -/
theorem slot_next (h : r.Records start past recent) (n : Nat) :
    Cyclic.next .w64 (n % r.capacity) (r.capacity - 1) = .ok ((n + 1) % r.capacity) := by
  have hnext := Cyclic.next_mod (n := n) h.lastSlot_le
  rwa [h.lastSlot_add_one] at hnext

/-- The slot before that of place `n` is that of place `n - 1`. -/
theorem slot_prev (h : r.Records start past recent) {n : Nat} (hn : 0 < n) :
    Cyclic.prev .w64 (n % r.capacity) (r.capacity - 1) = .ok ((n - 1) % r.capacity) := by
  have hprev := Cyclic.prev_mod hn h.lastSlot_le
  rwa [h.lastSlot_add_one] at hprev

/-- The slot `b` after that of place `n` is that of place `n + b`. -/
theorem slot_add (h : r.Records start past recent) (n : Nat) {b : Nat} (hb : b < r.capacity) :
    Cyclic.add .w64 (n % r.capacity) b (r.capacity - 1) = .ok ((n + b) % r.capacity) := by
  have hadd := Cyclic.add_mod (n := n) (Nat.le_sub_one_of_lt hb) h.lastSlot_le
  rwa [h.lastSlot_add_one] at hadd

/-- The slot `b` before that of place `n` is that of place `n - b`. -/
theorem slot_sub (h : r.Records start past recent) {n b : Nat} (hb : b < r.capacity) (hn : b ≤ n) :
    Cyclic.sub .w64 (n % r.capacity) b (r.capacity - 1) = .ok ((n - b) % r.capacity) := by
  have hsub := Cyclic.sub_mod_of_le (Nat.le_sub_one_of_lt hb) hn h.lastSlot_le
  rwa [h.lastSlot_add_one] at hsub

/-- Places less than a full turn apart have different slots. -/
theorem slot_ne (h : r.Records start past recent) {i j : Nat} (hij : i < j) (hji : j < i + r.capacity) :
    i % r.capacity ≠ j % r.capacity := by
  have hturn : j ≤ i + (r.capacity - 1) := by omega
  have hne := Cyclic.mod_ne_of_lt hij hturn
  rwa [h.lastSlot_add_one] at hne

end Records

/-! ## Placing a value -/

/-- While slots are being filled the next one is the first that is not there yet; later it is one of them. -/
theorem Records.nextSlot_le (h : r.Records start past recent) : r.nextSlot ≤ r.slots.size := by
  rw [h.nextSlot_eq, h.size_eq]
  exact Nat.le_min.mpr ⟨Nat.mod_le _ _, Nat.le_of_lt (Nat.mod_lt _ h.capacity_pos)⟩

theorem size_place (h : r.nextSlot ≤ r.slots.size) (a : α) :
    (r.place a).size = max r.slots.size (r.nextSlot + 1) := by
  unfold place
  split
  · rw [Array.size_set]
    omega
  · rw [Array.size_push]
    omega

theorem getElem?_place (h : r.nextSlot ≤ r.slots.size) (a : α) (i : Nat) :
    (r.place a)[i]? = if i = r.nextSlot then some a else r.slots[i]? := by
  unfold place
  split
  · rw [Array.getElem?_set]
    simp only [eq_comm]
  · have hsize : r.slots.size = r.nextSlot := by omega
    rw [Array.getElem?_push, hsize]

/-- After an insertion the slots of the last `capacity` places hold the values of these places, the new one included. -/
theorem Records.place_eq (h : r.Records start past recent) (a : α) {j : Nat} (hj : j < past.length + 1)
    (hkept : past.length + 1 ≤ j + r.capacity) : (r.place a)[j % r.capacity]? = (past ++ [a])[j]? := by
  rw [getElem?_place h.nextSlot_le, h.nextSlot_eq]
  rcases Nat.lt_or_eq_of_le (Nat.le_of_lt_succ hj) with hold | hnew
  · rw [if_neg (h.slot_ne hold (by omega)), List.getElem?_append_left hold, h.slot_eq j hold (by omega)]
  · rw [if_pos (by rw [hnew]), hnew, List.getElem?_concat_length]

/-! ## Inserting -/

/-- The number of live values grows until all slots are live. -/
theorem Records.live_step (h : r.Records start past recent) :
    r.liveAfterInsert = .ok (min (recent + 1) r.capacity) := by
  have hlive := h.live_eq
  have hfit : r.capacity ≤ Width.w64.maxValue := h.capacity_le
  unfold liveAfterInsert
  by_cases hroom : r.live < r.capacity
  · rw [if_pos hroom, Width.add_eq_ok (by omega)]
    congr 1
    omega
  · rw [if_neg hroom]
    congr 1
    omega

/-- The insertion counter goes on by one and wraps past the last word. -/
theorem Records.written_step (h : r.Records start past recent) :
    Cyclic.next .w64 r.written lastWord = .ok ((start + (past.length + 1)) % (lastWord + 1)) := by
  rw [h.written_eq, Cyclic.next_mod lastWord_le, Nat.add_assoc]

/-- What an insertion leaves: its value is placed, and all counters go on by one. -/
theorem Records.insert_eq_ok (h : r.Records start past recent) (a : α) :
    r.insert a = .ok ⟨r.place a, r.capacity, (past.length + 1) % r.capacity, min (recent + 1) r.capacity,
      (start + (past.length + 1)) % (lastWord + 1)⟩ := by
  have hnext : Cyclic.next .w64 r.nextSlot (r.capacity - 1) = .ok ((past.length + 1) % r.capacity) := by
    rw [h.nextSlot_eq, h.slot_next]
  unfold Ring.insert
  rw [h.lastSlot_eq_ok, ok_bind, h.live_step, ok_bind, hnext, ok_bind, h.written_step, ok_bind]

/-- An insertion succeeds and adds its value to the past. -/
theorem Records.insert (h : r.Records start past recent) (a : α) :
    ∃ r', r.insert a = .ok r' ∧ r'.capacity = r.capacity ∧ r'.Records start (past ++ [a]) (recent + 1) := by
  refine ⟨_, h.insert_eq_ok a, rfl, ?_⟩
  constructor
  case capacity_pos => exact h.capacity_pos
  case capacity_le => exact h.capacity_le
  case recent_le => simpa using h.recent_le
  case size_eq =>
    have hsize := h.size_eq
    have hnextSlot := h.nextSlot_eq
    have hlt : past.length % r.capacity < r.capacity := Nat.mod_lt _ h.capacity_pos
    simp only [size_place h.nextSlot_le, List.length_append, List.length_singleton]
    by_cases hfull : past.length < r.capacity
    · rw [Nat.mod_eq_of_lt hfull] at hnextSlot
      omega
    · omega
  case nextSlot_eq => simp
  case live_eq => rfl
  case written_eq => simp
  case slot_eq =>
    intro j hj hkept
    simp only [List.length_append, List.length_singleton] at hj hkept
    exact h.place_eq a hj hkept

/-- Inserting values in order adds them to the past in this order. -/
theorem Records.insertMany (h : r.Records start past recent) (values : List α) :
    ∃ r', r.insertMany values = .ok r' ∧ r'.capacity = r.capacity ∧
      r'.Records start (past ++ values) (recent + values.length) := by
  induction values generalizing r past recent with
  | nil => exact ⟨r, rfl, rfl, by simpa using h⟩
  | cons a rest ih =>
    obtain ⟨r₁, hinsert, hcapacity₁, h₁⟩ := h.insert a
    obtain ⟨r₂, hrest, hcapacity₂, h₂⟩ := ih h₁
    refine ⟨r₂, ?_, hcapacity₂.trans hcapacity₁, ?_⟩
    · rw [Ring.insertMany, hinsert, ok_bind, hrest]
    · have hcount : recent + 1 + rest.length = recent + (rest.length + 1) := by omega
      rw [List.append_assoc, List.singleton_append, hcount] at h₂
      exact h₂

end Ring

end Lookback
