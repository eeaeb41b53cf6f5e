import Lookback.Proofs.History.Cursors

/-!
# What an answer leaves open

A batch takes from the values open to a reader, so fewer are open to it afterwards (`openValues_answer_lt`): that is why polling
until nothing comes ends. What an empty batch means depends on the request. A reader that takes any batch has caught up with
the past; one that waits for full batches may have some values left, fewer than a batch. For that second statement nothing
must have been cleared, and a full batch must fit into the slots: otherwise values that are no longer held would keep the
reader waiting (`answer_empty_of_exact`).
-/

namespace Lookback

namespace Request

variable {α : Type} {q : Request} {past : List α} {held cursor capacity : Nat}

/-- An answer that brings nothing fell short of an exact request, or found nothing open. -/
theorem answer_of_empty (hamount : q.amount ≠ 0) (hheld : held ≤ past.length)
    (hempty : (q.answer past held cursor).batch = []) :
    q.exact = true ∧ min (insertionsSince past.length cursor) held < q.amount ∧
        (q.answer past held cursor).cursor = cursor ∨
      ¬(q.exact = true ∧ min (insertionsSince past.length cursor) held < q.amount) ∧
        openValues past.length held q.amount cursor = 0 ∧ (q.answer past held cursor).cursor = past.length := by
  by_cases hshort : q.exact = true ∧ min (insertionsSince past.length cursor) held < q.amount
  · rw [answer_of_short hamount hshort]
    exact Or.inl ⟨hshort.1, hshort.2, rfl⟩
  by_cases hnone : openValues past.length held q.amount cursor = 0
  · rw [answer_of_none_open hamount hshort hnone]
    exact Or.inr ⟨hshort, hnone, rfl⟩
  obtain ⟨hlow, hhigh⟩ := Ring.window_bounds hamount hnone
  have hle := openValues_le_live past.length held q.amount cursor
  have hlength := congrArg List.length hempty
  rw [answer_of_open hamount hshort hnone hheld, Stretch.length_extract (Nat.sub_le _ _), List.length_nil] at hlength
  omega

/-- After a batch fewer values are open than before. -/
theorem openValues_answer_lt (hheld : held ≤ past.length) (hbatch : (q.answer past held cursor).batch ≠ []) :
    openValues past.length held q.amount (q.answer past held cursor).cursor <
      openValues past.length held q.amount cursor := by
  rcases answer_cases q hheld cursor with h | h | ⟨first, last, hlt, hlast, hopen, h⟩
  · rw [h] at hbatch
    exact absurd rfl hbatch
  · rw [h] at hbatch
    exact absurd rfl hbatch
  · have hle := openValues_le_live past.length held q.amount cursor
    have hnext : openValues past.length held q.amount last = min (past.length - last) held := if_pos ⟨by omega, hlast⟩
    rw [h]
    simp only [hnext]
    omega

/-- A full batch is what an exact request gets, if it gets any. -/
theorem length_answer_of_exact (hexact : q.exact = true) (hamount : q.amount ≠ 0) (hheld : held ≤ past.length)
    (hfew : past.length ≤ lastWord) (hbatch : (q.answer past held cursor).batch ≠ []) :
    (q.answer past held cursor).batch.length = q.amount := by
  by_cases hshort : q.exact = true ∧ min (insertionsSince past.length cursor) held < q.amount
  · rw [answer_of_short hamount hshort] at hbatch
    exact absurd rfl hbatch
  have hunread : q.amount ≤ min (insertionsSince past.length cursor) held :=
    Nat.le_of_not_lt fun hless => hshort ⟨hexact, hless⟩
  have henough := le_openValues_of_unread hfew hunread
  have hle := openValues_le_live past.length held q.amount cursor
  rw [answer_of_open hamount hshort (by omega) hheld, Stretch.length_extract (Nat.sub_le _ _)]
  unfold window
  cases q.mode with
  | windowed =>
    simp only
    omega
  | continuous =>
    simp only
    omega

/-- A reader that takes any batch is at the end of the past when it gets none. -/
theorem answer_empty_of_inexact (hexact : q.exact = false) (hamount : q.amount ≠ 0) (hheld : held ≤ past.length)
    (hempty : (q.answer past held cursor).batch = []) : (q.answer past held cursor).cursor = past.length := by
  rcases answer_of_empty hamount hheld hempty with ⟨hexact', -⟩ | ⟨-, -, hend⟩
  · rw [hexact] at hexact'
    exact absurd hexact' Bool.false_ne_true
  · exact hend

/-! ## Histories that were never cleared -/

/-- If nothing was cleared, an answer that brings nothing leaves the cursor where it is. -/
theorem answer_cursor_of_empty (hpos : 0 < capacity) (hamount : q.amount ≠ 0) (hcursor : cursor ≤ past.length)
    (hempty : (q.answer past (min past.length capacity) cursor).batch = []) :
    (q.answer past (min past.length capacity) cursor).cursor = cursor := by
  rcases answer_of_empty hamount (Nat.min_le_left _ _) hempty with ⟨-, -, hstay⟩ | ⟨-, hnone, hend⟩
  · exact hstay
  · unfold openValues at hnone
    rw [hend]
    split at hnone <;> omega

/-- If nothing was cleared and a full batch fits into the slots, a reader of full batches that gets none has fewer values left
than a batch. -/
theorem answer_empty_of_exact (hexact : q.exact = true) (hamount : q.amount ≠ 0) (hroom : q.amount ≤ capacity)
    (hfew : past.length ≤ lastWord) (hcursor : cursor ≤ past.length)
    (hempty : (q.answer past (min past.length capacity) cursor).batch = []) : past.length - cursor < q.amount := by
  rcases answer_of_empty hamount (Nat.min_le_left _ _) hempty with ⟨-, hshort, -⟩ | ⟨hshort, hnone, -⟩
  · rw [insertionsSince_of_le hcursor hfew] at hshort
    omega
  · have hunread : q.amount ≤ min (insertionsSince past.length cursor) (min past.length capacity) :=
      Nat.le_of_not_lt fun hless => hshort ⟨hexact, hless⟩
    have henough := le_openValues_of_unread hfew hunread
    omega

end Request

end Lookback
