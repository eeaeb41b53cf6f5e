/-!
# Stretches of a list

A batch is a stretch of the past of a history: `past.extract i j` are the values from place `i` up to place `j`. Here is
what holds of stretches of any list: how long they are, which places they show, how they join, and that a list that only
grows keeps them.
-/

namespace Lookback

namespace Stretch

variable {α : Type} {values : List α} {i j k : Nat}

theorem length_extract (hj : j ≤ values.length) : (values.extract i j).length = j - i := by
  rw [List.extract, List.length_take, List.length_drop]
  omega

/-- Nothing lies between a place and itself. -/
theorem extract_self (values : List α) (i : Nat) : values.extract i i = [] := by
  rw [List.extract, Nat.sub_self, List.take_zero]

/-- The value at a place of a stretch. -/
theorem getElem?_extract (hk : k < j - i) : (values.extract i j)[k]? = values[i + k]? := by
  rw [List.extract, List.getElem?_take, if_pos hk, List.getElem?_drop]

/-- The values of a stretch, one place after the other. -/
theorem map_some_extract (hj : j ≤ values.length) :
    (values.extract i j).map some = (List.range' i (j - i)).map (values[·]?) := by
  have hlength := length_extract (i := i) hj
  apply List.ext_getElem?
  intro k
  rw [List.getElem?_map, List.getElem?_map]
  by_cases hk : k < j - i
  · have hin : i + k < values.length := by omega
    rw [List.getElem?_range' hk, getElem?_extract hk]
    simp [List.getElem?_eq_getElem hin]
  · rw [List.getElem?_eq_none (by omega), List.getElem?_eq_none (by rw [List.length_range']; omega)]
    rfl

/-- Stretches that follow one another make one stretch. -/
theorem extract_append_extract (hij : i ≤ j) (hjk : j ≤ k) :
    values.extract i j ++ values.extract j k = values.extract i k := by
  have hsum : k - i = (j - i) + (k - j) := by omega
  have hmid : i + (j - i) = j := by omega
  rw [List.extract, List.extract, List.extract, hsum, List.take_add, List.drop_drop, hmid]

/-- A stretch and what comes after it are the list from the start of the stretch on. -/
theorem extract_append_drop (hij : i ≤ j) : values.extract i j ++ values.drop j = values.drop i := by
  have hmid : i + (j - i) = j := by omega
  have hparts := List.take_append_drop (j - i) (values.drop i)
  rw [List.drop_drop, hmid] at hparts
  exact hparts

/-- A stretch behind the first part of a list is a stretch of the second part. -/
theorem extract_append_right (earlier values : List α) (i j : Nat) :
    (earlier ++ values).extract (earlier.length + i) (earlier.length + j) = values.extract i j := by
  have hlength : earlier.length + j - (earlier.length + i) = j - i := by omega
  rw [List.extract, List.extract, List.drop_append, hlength, List.drop_eq_nil_of_le (Nat.le_add_right _ _), List.nil_append,
    Nat.add_sub_cancel_left]

/-- What is added to the end of a list does not matter to a stretch before it. -/
theorem extract_of_prefix {later : List α} (h : values <+: later) (hj : j ≤ values.length) :
    values.extract i j = later.extract i j := by
  obtain ⟨added, rfl⟩ := h
  rw [List.extract, List.extract]
  by_cases hi : i ≤ values.length
  · have hlength : j - i ≤ (values.drop i).length := by
      rw [List.length_drop]
      omega
    rw [List.drop_append_of_le_length hi, List.take_append_of_le_length hlength]
  · have hnone : j - i = 0 := by omega
    rw [hnone, List.take_zero, List.take_zero]

end Stretch

end Lookback
