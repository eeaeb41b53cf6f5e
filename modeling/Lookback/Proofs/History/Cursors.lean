import Lookback.Proofs.History.Answers
import Lookback.Proofs.Stretch

/-!
# What an answer means for the cursor

A cursor is a place of the past: the values before it were seen or skipped, the values from it on are still to come. An
answer keeps to this. Its batch is the stretch of the past that ends at the new cursor (`answer_batch`); a cursor within the
past moves on, and no further than the past goes (`answer_cursor`); a cursor that lies beyond the past stays there only as
long as nothing is delivered (`answer_cursor_of_batch`). A continuous answer leaves out of what it passes just the values that
are no longer held (`answer_continuous`).
-/

namespace Lookback

/-- The place of the first value of a batch: its last value stands right before the new cursor. -/
def Reading.first {α : Type} (reading : Reading α) : Nat := reading.cursor - reading.batch.length

/-- The places of the values of a batch. -/
def Reading.places {α : Type} (reading : Reading α) : List Nat := List.range' reading.first reading.batch.length

namespace Request

variable {α : Type} {q : Request} {past : List α} {held cursor : Nat}

/-- An answer brings nothing and leaves the cursor, or brings nothing and moves it to the end of the past, or brings a
stretch of the values open to the request and moves the cursor to the end of that stretch. -/
theorem answer_cases (q : Request) (hheld : held ≤ past.length) (cursor : Nat) :
    q.answer past held cursor = ⟨[], cursor⟩ ∨ q.answer past held cursor = ⟨[], past.length⟩ ∨
      ∃ first last, first < last ∧ last ≤ past.length ∧
        past.length - openValues past.length held q.amount cursor ≤ first ∧
        q.answer past held cursor = ⟨past.extract first last, last⟩ := by
  by_cases hamount : q.amount = 0
  · exact Or.inr (Or.inl (answer_of_zero hamount))
  by_cases hshort : q.exact = true ∧ min (insertionsSince past.length cursor) held < q.amount
  · exact Or.inl (answer_of_short hamount hshort)
  by_cases hnone : openValues past.length held q.amount cursor = 0
  · exact Or.inr (Or.inl (answer_of_none_open hamount hshort hnone))
  obtain ⟨hlow, hhigh⟩ := Ring.window_bounds hamount hnone
  have hle := openValues_le_live past.length held q.amount cursor
  exact Or.inr (Or.inr ⟨_, _, by omega, Nat.sub_le _ _, by omega, answer_of_open hamount hshort hnone hheld⟩)

/-- No answer makes up a cursor beyond the past. -/
theorem answer_cursor_le_max (hheld : held ≤ past.length) :
    (q.answer past held cursor).cursor ≤ max cursor past.length := by
  rcases answer_cases q hheld cursor with h | h | ⟨first, last, -, hlast, -, h⟩
  · rw [h]
    exact Nat.le_max_left _ _
  · rw [h]
    exact Nat.le_max_right _ _
  · rw [h]
    exact Nat.le_trans hlast (Nat.le_max_right _ _)

/-- A batch is the stretch of the past that ends at the new cursor. -/
theorem answer_batch (hheld : held ≤ past.length) :
    (q.answer past held cursor).batch =
      past.extract (q.answer past held cursor).first (q.answer past held cursor).cursor := by
  rcases answer_cases q hheld cursor with h | h | ⟨first, last, hlt, hlast, -, h⟩
  · simp [h, Reading.first]
  · simp [h, Reading.first]
  · have hfirst : last - (past.extract first last).length = first := by
      rw [Stretch.length_extract hlast]
      omega
    simp only [h, Reading.first, hfirst]

/-- Where a batch brings something, it lies in the past, and the cursor is behind its last value. -/
theorem answer_cursor_of_batch (hheld : held ≤ past.length) (hbatch : (q.answer past held cursor).batch ≠ []) :
    (q.answer past held cursor).first + (q.answer past held cursor).batch.length = (q.answer past held cursor).cursor ∧
      (q.answer past held cursor).cursor ≤ past.length := by
  rcases answer_cases q hheld cursor with h | h | ⟨first, last, hlt, hlast, -, h⟩
  · rw [h] at hbatch
    exact absurd rfl hbatch
  · rw [h] at hbatch
    exact absurd rfl hbatch
  · simp only [h, Reading.first, Stretch.length_extract hlast]
    omega

/-- What is open to a reader within the past lies from the cursor on. -/
theorem le_of_openValues (hcursor : cursor ≤ past.length) (held amount : Nat) :
    cursor ≤ past.length - openValues past.length held amount cursor := by
  unfold openValues
  split
  · omega
  · omega

/-- A cursor within the past moves on, past nothing of the batch, and stays within the past. -/
theorem answer_cursor (hheld : held ≤ past.length) (hcursor : cursor ≤ past.length) :
    cursor ≤ (q.answer past held cursor).first ∧ (q.answer past held cursor).first ≤ (q.answer past held cursor).cursor ∧
      (q.answer past held cursor).cursor ≤ past.length := by
  rcases answer_cases q hheld cursor with h | h | ⟨first, last, hlt, hlast, hopen, h⟩
  · simpa [h, Reading.first] using hcursor
  · simpa [h, Reading.first] using hcursor
  · have hle := le_of_openValues hcursor held q.amount
    simp only [h, Reading.first, Stretch.length_extract hlast]
    omega

/-- The places that a continuous answer passes are those of its batch, as far as their values are still held. -/
theorem answer_continuous (hmode : q.mode = .continuous) (hamount : q.amount ≠ 0) (hheld : held ≤ past.length)
    (hpos : 0 < cursor) (hcursor : cursor ≤ past.length) {j : Nat} (hlow : cursor ≤ j)
    (hhigh : j < (q.answer past held cursor).cursor) :
    (q.answer past held cursor).first ≤ j ↔ past.length ≤ j + held := by
  have hopen : openValues past.length held q.amount cursor = min (past.length - cursor) held :=
    if_pos ⟨hpos, hcursor⟩
  by_cases hshort : q.exact = true ∧ min (insertionsSince past.length cursor) held < q.amount
  · simp only [answer_of_short hamount hshort] at hhigh
    omega
  by_cases hnone : openValues past.length held q.amount cursor = 0
  · simp only [answer_of_none_open hamount hshort hnone, Reading.first, List.length_nil] at hhigh ⊢
    omega
  have hanswer := answer_of_open hamount hshort hnone hheld
  simp only [window, hmode, hopen] at hanswer
  have hlast : past.length - (min (past.length - cursor) held - q.amount) ≤ past.length := Nat.sub_le _ _
  simp only [hanswer, Reading.first, Stretch.length_extract hlast] at hhigh ⊢
  omega

/-- A continuous answer to a reader who is no further behind than the values held passes nothing by. -/
theorem answer_first_of_held (hmode : q.mode = .continuous) (hamount : q.amount ≠ 0) (hheld : held ≤ past.length)
    (hpos : 0 < cursor) (hcursor : cursor ≤ past.length) (hbehind : past.length - cursor ≤ held) :
    (q.answer past held cursor).first = cursor := by
  obtain ⟨hfirst, hlast, -⟩ := answer_cursor (q := q) hheld hcursor
  rcases Nat.lt_or_eq_of_le (Nat.le_trans hfirst hlast) with hmoved | hstayed
  · have hkept := (answer_continuous hmode hamount hheld hpos hcursor (Nat.le_refl cursor) hmoved).mpr (by omega)
    omega
  · omega

end Request

end Lookback
