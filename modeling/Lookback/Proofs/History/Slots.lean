import Lookback.Proofs.History.Edits
import Lookback.Proofs.Ring.Lookup

/-!
# Where the slots stand

The counters of a ring and the number of its filled slots follow from two numbers: how many values were inserted, and how many
of them since the last clear. `Ring.Layout` lists how. A clear resets only the second number, so it may come at any turn of the
slots; while they are being filled for the first time the next slot is the first one missing, cleared or not. Hence a value
goes behind the filled slots or over one of them, and the slots of the live values, counted back around the cycle from the
next slot, are filled.

No edits lead out of this layout, and in it no check of the slot arithmetic fails (`slots_in_bounds`).
-/

namespace Lookback

namespace Ring

variable {α : Type} {r : Ring α} {start recent : Nat} {past : List α}

/-- How the counters and slots of a ring stand after `inserted` insertions, the last `recent` of them since it was last
cleared, its counter having begun at `start`. -/
structure Layout (r : Ring α) (capacity start inserted recent : Nat) : Prop where
  capacity_eq : r.capacity = capacity
  size_eq : r.slots.size = min inserted capacity
  nextSlot_eq : r.nextSlot = inserted % capacity
  live_eq : r.live = min recent capacity
  live_le_size : r.live ≤ r.slots.size
  written_eq : r.written = (start + inserted) % (lastWord + 1)
  nextSlot_of_filling : r.slots.size < capacity → r.nextSlot = r.slots.size
  live_slot_filled : ∀ k, k < r.live → (r.nextSlot + capacity - 1 - k) % capacity < r.slots.size

namespace Records

theorem live_le_size (h : r.Records start past recent) : r.live ≤ r.slots.size := by
  rw [h.live_eq, h.size_eq]
  have hrecent := h.recent_le
  omega

/-- On the first pass the next slot is the first one that is not filled. -/
theorem nextSlot_of_filling (h : r.Records start past recent) (hfilling : r.slots.size < r.capacity) :
    r.nextSlot = r.slots.size := by
  have hsize := h.size_eq
  have hfew : past.length < r.capacity := by omega
  rw [h.nextSlot_eq, Nat.mod_eq_of_lt hfew]
  omega

/-- The slot `k + 1` before the next one is filled, if there are more than `k` live values. -/
theorem live_slot_filled (h : r.Records start past recent) {k : Nat} (hk : k < r.live) :
    (r.nextSlot + r.capacity - 1 - k) % r.capacity < r.slots.size := by
  have hlive := h.live_le_size
  by_cases hfilling : r.slots.size < r.capacity
  · have hback : r.nextSlot + r.capacity - 1 - k = r.slots.size - 1 - k + r.capacity := by
      rw [h.nextSlot_of_filling hfilling]
      omega
    rw [hback, Nat.add_mod_right, Nat.mod_eq_of_lt (by omega)]
    omega
  · exact Nat.lt_of_lt_of_le (Nat.mod_lt _ h.capacity_pos) (Nat.le_of_not_lt hfilling)

theorem layout (h : r.Records start past recent) : r.Layout r.capacity start past.length recent where
  capacity_eq := rfl
  size_eq := h.size_eq
  nextSlot_eq := h.nextSlot_eq
  live_eq := h.live_eq
  live_le_size := h.live_le_size
  written_eq := h.written_eq
  nextSlot_of_filling := h.nextSlot_of_filling
  live_slot_filled := fun _ => h.live_slot_filled

/-! ## What is safe in this layout -/

/-- A value goes behind the filled slots or over one of them. -/
theorem insert_places (h : r.Records start past recent) (a : α) :
    ∃ r', r.insert a = .ok r' ∧
      (r.nextSlot = r.slots.size ∧ r'.slots = r.slots.push a ∨
        ∃ hslot : r.nextSlot < r.slots.size, r'.slots = r.slots.set r.nextSlot a hslot) := by
  refine ⟨_, h.insert_eq_ok a, ?_⟩
  by_cases hslot : r.nextSlot < r.slots.size
  · exact Or.inr ⟨hslot, dif_pos hslot⟩
  · exact Or.inl ⟨Nat.le_antisymm h.nextSlot_le (Nat.le_of_not_lt hslot), dif_neg hslot⟩

/-- The newest slot is one of the ring's slots, whether or not anything was inserted. -/
theorem newestSlot_lt (h : r.Records start past recent) : ∃ slot, r.newestSlot = .ok slot ∧ slot < r.capacity := by
  have hnext : r.nextSlot ≤ r.capacity - 1 := by
    rw [h.nextSlot_eq]
    exact Nat.le_sub_one_of_lt (Nat.mod_lt _ h.capacity_pos)
  refine ⟨(r.nextSlot + (r.capacity - 1)) % r.capacity, ?_, Nat.mod_lt _ h.capacity_pos⟩
  unfold newestSlot
  rw [h.lastSlot_eq_ok, ok_bind, Cyclic.prev_eq_ok hnext h.lastSlot_le, h.lastSlot_add_one]

/-- A window within the live values is copied in full. -/
theorem window_length (h : r.Records start past recent) {low high : Nat} (hlow : low < high) (hhigh : high ≤ r.live) :
    ∃ batch, r.window low high = .ok batch ∧ batch.length = high - low := by
  have hlive := h.live_le_length
  refine ⟨_, h.window_eq_ok hlow hhigh, ?_⟩
  rw [List.extract, List.length_take, List.length_drop]
  omega

end Records

end Ring

namespace History

variable {α : Type}

/-- Whatever edits were made of a new history, wherever its counter began: slots and counters stand as the numbers of
insertions say, a further insertion places its value behind the filled slots or over one of them, the newest slot is one of
the ring's slots, single values are found or lie past the live ones, and every window within the live values is copied in
full. -/
theorem slots_in_bounds {capacity start : Nat} (hpos : 0 < capacity) (hfit : capacity ≤ lastWord) (hstart : start ≤ lastWord)
    (es : List (Edit α)) :
    ∃ h, (startingAt capacity start).edits es = .ok h ∧
      h.ring.Layout capacity start (Edit.inserted es).length (Edit.sinceClear es).length ∧
      (∀ a, ∃ r, h.ring.insert a = .ok r ∧
        (h.ring.nextSlot = h.ring.slots.size ∧ r.slots = h.ring.slots.push a ∨
          ∃ hslot : h.ring.nextSlot < h.ring.slots.size, r.slots = h.ring.slots.set h.ring.nextSlot a hslot)) ∧
      (∃ slot, h.ring.newestSlot = .ok slot ∧ slot < capacity) ∧
      (∀ i, i < h.ring.live → (∃ a, h.ring.fromOldest i = .ok a) ∧ ∃ a, h.ring.fromNewest i = .ok a) ∧
      (∀ i, h.ring.live ≤ i → h.ring.fromOldest i = .error (.outOfBounds i h.ring.live) ∧
        h.ring.fromNewest i = .error (.outOfBounds i h.ring.live)) ∧
      ∀ low high, low < high → high ≤ h.ring.live →
        ∃ batch, h.ring.window low high = .ok batch ∧ batch.length = high - low := by
  obtain ⟨h, hedits, hcapacity, hrec⟩ := edits_eq_ok hpos hfit hstart es
  obtain rfl : h.ring.capacity = capacity := hcapacity
  refine ⟨h, hedits, hrec.layout, hrec.insert_places, hrec.newestSlot_lt, ?_, ?_, ?_⟩
  · intro i hi
    obtain ⟨a, -, holdest⟩ := hrec.fromOldest_eq_ok hi
    obtain ⟨b, -, hnewest⟩ := hrec.fromNewest_eq_ok hi
    exact ⟨⟨a, holdest⟩, ⟨b, hnewest⟩⟩
  · intro i hi
    exact ⟨Ring.fromOldest_eq_error hi, Ring.fromNewest_eq_error hi⟩
  · intro low high hlow hhigh
    exact hrec.window_length hlow hhigh

/-- Three slots, cleared on the first pass and again after the first turn, with a counter that comes round to zero. -/
theorem slots_in_bounds_after_two_clears :
    0 < 3 ∧ 3 ≤ lastWord ∧ lastWord - 3 ≤ lastWord ∧
      ∃ h, (startingAt 3 (lastWord - 3)).edits
          [.insertMany [1, 2], .clear, .insertMany [3, 4], .clear, .insert 5] = .ok h ∧
        h.ring.slots.size = 3 ∧ h.ring.nextSlot = 2 ∧ h.ring.live = 1 ∧ h.ring.written = 1 ∧
        (∃ r, h.ring.insert 6 = .ok r ∧ ∃ hslot : 2 < h.ring.slots.size, r.slots = h.ring.slots.set 2 6 hslot) ∧
        ∃ batch, h.ring.window 0 1 = .ok batch ∧ batch.length = 1 := by
  have hpos : 0 < 3 := by decide
  have hfit : 3 ≤ lastWord := by decide
  have hstart : lastWord - 3 ≤ lastWord := Nat.sub_le _ _
  obtain ⟨h, hedits, hlayout, hinsert, -, -, -, hwindow⟩ :=
    slots_in_bounds hpos hfit hstart [.insertMany [1, 2], .clear, .insertMany [3, 4], .clear, .insert 5]
  have hsize : h.ring.slots.size = 3 := hlayout.size_eq
  have hnext : h.ring.nextSlot = 2 := hlayout.nextSlot_eq
  have hlive : h.ring.live = 1 := hlayout.live_eq
  obtain ⟨r, hr, hplace⟩ := hinsert 6
  refine ⟨hpos, hfit, hstart, h, hedits, hsize, hnext, hlive, hlayout.written_eq, ⟨r, hr, ?_⟩, ?_⟩
  · rcases hplace with ⟨hbehind, -⟩ | ⟨hslot, hover⟩
    · omega
    · simp only [hnext] at hslot hover
      exact ⟨hslot, hover⟩
  · exact hwindow 0 1 (by decide) (by omega)

end History

end Lookback
