import Lookback.Proofs.Sampler.Polls
import Lookback.Sampler.Producer

/-!
# The samples a producer writes

A producer numbers its samples from zero and never clears: the history it writes to holds the last of them, as many as there are
slots (`Intact`). Each write adds the sample of the next number (`Producer.write_eq_ok`).
-/

namespace Lookback

/-- A history of so many slots that was filled with numbered samples and never cleared. -/
structure Intact (h : History Sample) (capacity : Nat) (past : List Sample) : Prop where
  records : h.ring.Records 0 past past.length
  capacity_eq : h.capacity = capacity
  numbered : Numbered past
  few : past.length ≤ lastWord

/-- As many samples are held as there are, up to the number of slots. -/
theorem Intact.size_eq {h : History Sample} {capacity : Nat} {past : List Sample} (hi : Intact h capacity past) :
    h.size = min past.length capacity := by
  rw [← hi.capacity_eq]
  exact hi.records.live_eq

theorem Intact.capacity_pos {h : History Sample} {capacity : Nat} {past : List Sample} (hi : Intact h capacity past) :
    0 < capacity := by
  rw [← hi.capacity_eq]
  exact hi.records.capacity_pos

/-- A new history has an empty past. -/
theorem Intact.empty {capacity : Nat} (hpos : 0 < capacity) (hfit : capacity ≤ lastWord) :
    Intact (.empty capacity) capacity [] :=
  ⟨Ring.records_startingAt hpos hfit (Nat.zero_le _), rfl, rfl, Nat.zero_le _⟩

namespace Producer

/-- The first `n` samples that a producer writes. -/
def written (clock : Nat → Timestamp) (n : Nat) : List Sample :=
  (List.range n).map fun k => .synthetic k.toUInt64 (clock k)

variable {clock : Nat → Timestamp} {n : Nat}

@[simp] theorem length_written : (written clock n).length = n := by
  rw [written, List.length_map, List.length_range]

theorem written_succ : written clock (n + 1) = written clock n ++ [.synthetic n.toUInt64 (clock n)] := by
  rw [written, List.range_succ, List.map_append, List.map_singleton, written]

/-- The samples are numbered as they are written, as far as numbers fit into a word. -/
theorem written_numbered (hfew : n ≤ lastWord) : Numbered (written clock n) := by
  have hnumber : ∀ k ∈ List.range n, (Sample.synthetic k.toUInt64 (clock k)).sequence.toNat = k := by
    intro k hk
    have hk := List.mem_range.mp hk
    exact Nat.mod_eq_of_lt (Nat.lt_of_lt_of_le hk (Nat.le_trans hfew (by decide)))
  have hnumbers : Sample.numbers (written clock n) = (List.range n).map id := by
    rw [Sample.numbers, written, List.map_map]
    exact List.map_congr_left hnumber
  rw [Numbered, length_written, hnumbers, List.map_id]

/-- A write goes on with the samples. -/
theorem write_eq_ok {p : Produced} {capacity : Nat} (hi : Intact p.history capacity (written clock p.count))
    (hmore : p.count < lastWord) :
    ∃ history, write clock p = .ok ⟨p.count + 1, history⟩ ∧ Intact history capacity (written clock (p.count + 1)) := by
  obtain ⟨ring, hinsert, hcapacity, hrecords⟩ :=
    hi.records.insert (Sample.synthetic p.count.toUInt64 (clock p.count))
  rw [← written_succ] at hrecords
  refine ⟨⟨ring⟩, ?_, ?_, hcapacity.trans hi.capacity_eq, written_numbered hmore, ?_⟩
  · rw [write, History.insert, hinsert, ok_bind, ok_bind]
  · simpa using hrecords
  · rw [length_written]
    exact hmore

end Producer

end Lookback
