import Lookback.Ring.Read

/-!
# Reading into a list

What is read can be copied to the end of a list, one span of slots after the other; a step that fails leaves the list as it is by
then. On every ring, sound or not, copying a window appends just the values that the window brings, and fails where that fails
(`windowInto_eq_window`). So does a whole read (`readInto_eq_read`): there is one answer to a request, whether it is handed out or
copied.
-/

namespace Lookback

namespace Ring

variable {α : Type} {r : Ring α}

/-- A span that is copied has the length asked for. -/
theorem length_of_span {first length : Nat} {values : List α} (h : r.span first length = .ok values) :
    values.length = length := by
  unfold span at h
  by_cases hword : first + length ≤ Width.w64.maxValue
  case neg =>
    rw [Width.add_eq_error (Nat.lt_of_not_le hword)] at h
    cases h
  rw [Width.add_eq_ok hword, ok_bind] at h
  by_cases hfilled : first + length ≤ r.slots.size
  · rw [if_pos hfilled] at h
    obtain rfl := Except.ok.inj h
    rw [Array.length_toList, Array.size_extract]
    omega
  · rw [if_neg hfilled] at h
    cases h

/-- Whatever the ring: copying a window to the end of a list brings there what `window` brings, and fails as it does. -/
theorem windowInto_eq_window (r : Ring α) (target : List α) (low high : Nat) :
    (r.windowInto target low high).mapError Interrupted.failure =
      (fun batch => ⟨batch.length, target ++ batch⟩) <$> r.window low high := by
  unfold windowInto window
  by_cases hunbacked : high ≤ low ∨ r.live < high
  · rw [if_pos hunbacked, if_pos hunbacked]
    rfl
  rw [if_neg hunbacked, if_neg hunbacked]
  simp only [Interrupted.mapError_guard_bind, map_bind]
  -- Up to the two spans both ways take the same steps.
  refine bind_congr fun limit => bind_congr fun newest => bind_congr fun reach => bind_congr fun first =>
    bind_congr fun requested => bind_congr fun runs => ?_
  obtain ⟨before, after⟩ := runs
  cases holder : r.span first before with
  | error failure => rfl
  | ok older =>
    cases hnewer : r.span 0 after with
    | error failure => rfl
    | ok newer =>
      by_cases hword : before + after ≤ Width.w64.maxValue
      case neg =>
        rw [Width.add_eq_error (Nat.lt_of_not_le hword)]
        rfl
      have hlength : (older ++ newer).length = before + after := by
        rw [List.length_append, length_of_span holder, length_of_span hnewer]
      rw [Width.add_eq_ok hword]
      simp only [ok_bind]
      by_cases hshort : before + after ≠ requested
      · rw [if_pos hshort, if_pos hshort]
        rfl
      · rw [if_neg hshort, if_neg hshort, List.append_assoc, ← hlength]
        rfl

/-- Whatever the ring: reading to the end of a list brings there what `read` brings, goes on from the same cursor, and fails as it
does. -/
theorem readInto_eq_read (r : Ring α) (target : List α) (q : Request) (cursor : Nat) :
    (r.readInto target q cursor).mapError Interrupted.failure =
      (fun reading => ⟨reading.batch.length, target ++ reading.batch, reading.cursor⟩) <$> r.read q cursor := by
  have hempty (next : Nat) : (.ok ⟨0, target, next⟩ : Except Failure (Appended α)) =
      (fun reading : Reading α => ⟨reading.batch.length, target ++ reading.batch, reading.cursor⟩) <$> .ok ⟨[], next⟩ := by
    change Except.ok _ = Except.ok (Appended.mk 0 (target ++ []) next)
    rw [List.append_nil]
  unfold readInto read
  by_cases hnothing : q.amount = 0
  · rw [if_pos hnothing, if_pos hnothing]
    exact hempty r.written
  rw [if_neg hnothing, if_neg hnothing, Interrupted.mapError_guard_bind, map_bind]
  refine bind_congr fun short => ?_
  cases short with
  | true => exact hempty cursor
  | false =>
    simp only [Bool.false_eq_true, if_false, Interrupted.mapError_guard_bind, map_bind]
    refine bind_congr fun available => ?_
    by_cases hnone : available = 0
    · rw [if_pos hnone, if_pos hnone]
      exact hempty r.written
    rw [if_neg hnone, if_neg hnone]
    obtain ⟨start, stop⟩ := q.window available
    dsimp only
    rw [mapError_bind, windowInto_eq_window, map_bind]
    cases r.window start stop with
    | error failure => rfl
    | ok batch =>
      refine (Interrupted.mapError_guard_bind _ _ _).trans ?_
      rw [ok_bind, map_bind]
      rfl

/-- What is copied to the end of a list is the batch that a read brings. -/
theorem readInto_eq_ok {q : Request} {cursor : Nat} {reading : Reading α} (hread : r.read q cursor = .ok reading)
    (target : List α) :
    r.readInto target q cursor = .ok ⟨reading.batch.length, target ++ reading.batch, reading.cursor⟩ := by
  have hcopy := r.readInto_eq_read target q cursor
  rw [hread] at hcopy
  exact Interrupted.eq_ok_of_mapError hcopy

end Ring

end Lookback
