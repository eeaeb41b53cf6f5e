import Lookback.Proofs.Ring.Past
import Lookback.Ring.Window

/-!
# Looking at the past through the slots

Three ways lead to the live values of a ring: by distance from the oldest one, by distance from the newest one, and as a
window that is copied in two spans where it passes the last slot. On a ring that records a past all three see the same
list, the last `live` values of that past.
-/

namespace Lookback

namespace Ring

variable {α : Type} {r : Ring α} {start recent : Nat} {past : List α}

namespace Records

/-- Live values are values of the past. -/
theorem live_le_length (h : r.Records start past recent) : r.live ≤ past.length := by
  have hlive := h.live_eq
  have hrecent := h.recent_le
  omega

theorem live_le_capacity (h : r.Records start past recent) : r.live ≤ r.capacity := by
  have hlive := h.live_eq
  omega

/-! ## Single values -/

/-- The slot of the value written last. -/
theorem newestSlot_eq (h : r.Records start past recent) (hpast : 0 < past.length) :
    r.newestSlot = .ok ((past.length - 1) % r.capacity) := by
  unfold newestSlot
  rw [h.lastSlot_eq_ok, ok_bind, h.nextSlot_eq, h.slot_prev hpast]

/-- A place among the last `capacity` ones is found in its slot. -/
theorem slot_eq_ok (h : r.Records start past recent) {j : Nat} (hj : j < past.length)
    (hkept : past.length ≤ j + r.capacity) : ∃ a, past[j]? = some a ∧ r.slot (j % r.capacity) = .ok a := by
  refine ⟨past[j], List.getElem?_eq_getElem hj, ?_⟩
  unfold slot
  rw [h.slot_eq j hj hkept, List.getElem?_eq_getElem hj]

/-- Counted from the newest value, the live values are the last ones of the past, backwards. -/
theorem fromNewest_eq_ok (h : r.Records start past recent) {i : Nat} (hi : i < r.live) :
    ∃ a, past[past.length - 1 - i]? = some a ∧ r.fromNewest i = .ok a := by
  have hlen := h.live_le_length
  have hcap := h.live_le_capacity
  obtain ⟨a, ha, hslot⟩ := h.slot_eq_ok (j := past.length - 1 - i) (by omega) (by omega)
  refine ⟨a, ha, ?_⟩
  unfold fromNewest
  rw [if_neg (by omega), h.lastSlot_eq_ok, ok_bind, h.newestSlot_eq (by omega), ok_bind, h.slot_sub (by omega) (by omega),
    ok_bind, hslot]

/-- Counted from the oldest live value, the live values are the last ones of the past, forwards. -/
theorem fromOldest_eq_ok (h : r.Records start past recent) {i : Nat} (hi : i < r.live) :
    ∃ a, past[past.length - r.live + i]? = some a ∧ r.fromOldest i = .ok a := by
  have hlen := h.live_le_length
  have hcap := h.live_le_capacity
  have holdest : past.length - 1 - (r.live - 1) = past.length - r.live := by omega
  obtain ⟨a, ha, hslot⟩ := h.slot_eq_ok (j := past.length - r.live + i) (by omega) (by omega)
  refine ⟨a, ha, ?_⟩
  unfold fromOldest
  rw [if_neg (by omega), h.lastSlot_eq_ok, ok_bind, h.newestSlot_eq (by omega), ok_bind, subtract_eq_ok (by omega), ok_bind,
    h.slot_sub (by omega) (by omega), holdest, ok_bind, h.slot_add _ (by omega), ok_bind, hslot]

end Records

/-- Past the live values there is nothing, from whichever end one counts. -/
theorem fromNewest_eq_error {i : Nat} (hi : r.live ≤ i) : r.fromNewest i = .error (.outOfBounds i r.live) :=
  if_pos hi

theorem fromOldest_eq_error {i : Nat} (hi : r.live ≤ i) : r.fromOldest i = .error (.outOfBounds i r.live) :=
  if_pos hi

/-! ## Windows -/

/-- A run of slots that starts at slot `first` is cut where the slots end. -/
theorem split_eq_ok {first : Nat} (hfirst : first ≤ r.capacity) (length : Nat) :
    r.split first length = .ok (min length (r.capacity - first), length - (r.capacity - first)) := by
  unfold split
  rw [subtract_eq_ok hfirst, ok_bind]
  by_cases hcut : r.capacity - first < length
  · rw [if_pos hcut, subtract_eq_ok (by omega), ok_bind, Nat.min_eq_right (by omega)]
  · rw [if_neg hcut, Nat.min_eq_left (by omega), Nat.sub_eq_zero_of_le (by omega)]

namespace Records

/-- A span of slots holds the values of the places it stands for, if all of these are among the last `capacity` ones. -/
theorem span_eq_ok (h : r.Records start past recent) (p length : Nat) (hrun : p % r.capacity + length ≤ r.capacity)
    (hend : p + length ≤ past.length) (hkept : past.length ≤ p + r.capacity) :
    r.span (p % r.capacity) length = .ok ((past.drop p).take length) := by
  have hword : r.capacity ≤ Width.w64.maxValue := h.capacity_le
  have hfilled : p % r.capacity + length ≤ r.slots.size := by
    rw [h.size_eq]
    have hmod := Nat.mod_le p r.capacity
    omega
  unfold span
  rw [Width.add_eq_ok (by omega), ok_bind, if_pos hfilled]
  congr 1
  apply List.ext_getElem?
  intro i
  rw [Array.getElem?_toList, Array.getElem?_extract, List.getElem?_take, List.getElem?_drop]
  by_cases hi : i < length
  · rw [if_pos (by omega), if_pos hi, ← h.slot_eq (p + i) (by omega) (by omega), Cyclic.mod_add_of_lt (by omega)]
  · rw [if_neg (by omega), if_neg hi]

/-- The part of a window behind the last slot: it starts at the first slot, and is empty for most windows. -/
theorem span_wrapped (h : r.Records start past recent) (p length : Nat) (hlength : length ≤ r.capacity)
    (hend : p + length ≤ past.length) (hkept : past.length ≤ p + r.capacity) :
    r.span 0 (length - (r.capacity - p % r.capacity)) =
      .ok (((past.drop p).drop (min length (r.capacity - p % r.capacity))).take
        (length - (r.capacity - p % r.capacity))) := by
  have hmod : p % r.capacity < r.capacity := Nat.mod_lt p h.capacity_pos
  by_cases hcut : r.capacity - p % r.capacity < length
  · have hturn : (p + (r.capacity - p % r.capacity)) % r.capacity = 0 := by
      have hsplit : p % r.capacity + (r.capacity - p % r.capacity) = r.capacity := by omega
      rw [← Nat.mod_add_mod, hsplit, Nat.mod_self]
    have hspan := h.span_eq_ok (p + (r.capacity - p % r.capacity)) (length - (r.capacity - p % r.capacity)) (by omega)
      (by omega) (by omega)
    rw [hturn] at hspan
    rw [hspan, Nat.min_eq_right (by omega), List.drop_drop]
  · have hnone : length - (r.capacity - p % r.capacity) = 0 := by omega
    rw [hnone]
    unfold span
    simp [Width.add]

/-- A window of live values is the stretch of the past that its ages name, oldest value first. -/
theorem window_eq_ok (h : r.Records start past recent) {low high : Nat} (hlow : low < high) (hhigh : high ≤ r.live) :
    r.window low high = .ok (past.extract (past.length - high) (past.length - low)) := by
  have hlen := h.live_le_length
  have hcap := h.live_le_capacity
  have hword : r.capacity ≤ Width.w64.maxValue := h.capacity_le
  have hfirst : past.length - 1 - (high - 1) = past.length - high := by omega
  have hmod : (past.length - high) % r.capacity < r.capacity := Nat.mod_lt _ h.capacity_pos
  have hsize : past.length - low - (past.length - high) = high - low := by omega
  have hrequested : min (high - low) r.capacity = high - low := Nat.min_eq_left (by omega)
  have holder := h.span_eq_ok (past.length - high)
    (min (high - low) (r.capacity - (past.length - high) % r.capacity)) (by omega) (by omega) (by omega)
  have hnewer := h.span_wrapped (past.length - high) (high - low) (by omega) (by omega) (by omega)
  have hcopied : min (high - low) (r.capacity - (past.length - high) % r.capacity) +
      (high - low - (r.capacity - (past.length - high) % r.capacity)) = high - low := by omega
  unfold window
  rw [if_neg (by omega), h.lastSlot_eq_ok, ok_bind, h.newestSlot_eq (by omega), ok_bind, subtract_eq_ok (by omega), ok_bind,
    h.slot_sub (by omega) (by omega), hfirst, ok_bind, subtract_eq_ok (by omega), ok_bind, hrequested,
    split_eq_ok (by omega), ok_bind]
  simp only [holder, hnewer, ok_bind]
  rw [Width.add_eq_ok (by omega), ok_bind, if_neg (by omega), ← List.take_add, hcopied, List.extract, hsize]

end Records

end Ring

end Lookback
