import Lookback.Proofs.History.Edits
import Lookback.Proofs.Ring.Copying
import Lookback.Proofs.Ring.Reading

/-!
# Answers to requests

`Request.answer` says what a reader gets, on the list of all values ever inserted: no slots, no clamping to a counter, no
copying in spans. A history answers every request so, for any cursor and amount (`answers_requests`), as long as its
counter has not come round to zero.
-/

namespace Lookback

/-- The answer to a request of a reader at `cursor`, from a history into which the values `past` were inserted and which
still holds the last `held` of them. -/
def Request.answer {α : Type} (q : Request) (past : List α) (held cursor : Nat) : Reading α :=
  let n := past.length
  let u := openValues n held q.amount cursor
  if q.amount = 0 then ⟨[], n⟩
  else if q.exact = true ∧ min (insertionsSince n cursor) held < q.amount then ⟨[], cursor⟩
  else if u = 0 then ⟨[], n⟩
  else match q.mode with
    | .windowed => ⟨past.extract (n - min u q.amount) n, n⟩
    | .continuous => ⟨past.extract (n - u) (n - u + min u q.amount), n - u + min u q.amount⟩

namespace Request

variable {α : Type} {q : Request} {past : List α} {held cursor : Nat}

theorem answer_of_zero (hamount : q.amount = 0) : q.answer past held cursor = ⟨[], past.length⟩ :=
  if_pos hamount

theorem answer_of_short (hamount : q.amount ≠ 0)
    (hshort : q.exact = true ∧ min (insertionsSince past.length cursor) held < q.amount) :
    q.answer past held cursor = ⟨[], cursor⟩ := by
  simp only [answer, if_neg hamount, if_pos hshort]

theorem answer_of_none_open (hamount : q.amount ≠ 0)
    (hshort : ¬(q.exact = true ∧ min (insertionsSince past.length cursor) held < q.amount))
    (hnone : openValues past.length held q.amount cursor = 0) : q.answer past held cursor = ⟨[], past.length⟩ := by
  simp only [answer, if_neg hamount, if_neg hshort, if_pos hnone]

/-- Where there is something to take, it is the window of the request, counted back from the end of the past. -/
theorem answer_of_open (hamount : q.amount ≠ 0)
    (hshort : ¬(q.exact = true ∧ min (insertionsSince past.length cursor) held < q.amount))
    (hopen : openValues past.length held q.amount cursor ≠ 0) (hheld : held ≤ past.length) :
    q.answer past held cursor =
      ⟨past.extract (past.length - (q.window (openValues past.length held q.amount cursor)).2)
          (past.length - (q.window (openValues past.length held q.amount cursor)).1),
        past.length - (q.window (openValues past.length held q.amount cursor)).1⟩ := by
  have hle := openValues_le_live past.length held q.amount cursor
  simp only [answer, if_neg hamount, if_neg hshort, if_neg hopen, window]
  cases q.mode with
  | windowed => rfl
  | continuous =>
    have hend : past.length - (openValues past.length held q.amount cursor - q.amount) =
        past.length - openValues past.length held q.amount cursor +
          min (openValues past.length held q.amount cursor) q.amount := by omega
    simp only [hend]

end Request

/-- A ring whose counter stands at the number of its insertions answers requests from its past. -/
theorem Ring.Records.read_eq_answer {α : Type} {r : Ring α} {start recent cursor : Nat} {past : List α}
    (h : r.Records start past recent) (hwritten : r.written = past.length) (q : Request) (hcursor : cursor ≤ lastWord) :
    r.read q cursor = .ok (q.answer past r.live cursor) := by
  have hfew : past.length ≤ lastWord := by
    rw [← hwritten]
    exact h.written_le
  rw [h.read_eq_ok q hcursor, hwritten]
  by_cases hamount : q.amount = 0
  · rw [if_pos hamount, Request.answer_of_zero hamount]
  rw [if_neg hamount]
  by_cases hshort : q.exact = true ∧ min (insertionsSince past.length cursor) r.live < q.amount
  · rw [if_pos hshort, Request.answer_of_short hamount hshort]
  rw [if_neg hshort]
  by_cases hnone : openValues past.length r.live q.amount cursor = 0
  · rw [if_pos hnone, Request.answer_of_none_open hamount hshort hnone]
  rw [if_neg hnone, Request.answer_of_open hamount hshort hnone h.live_le_length]
  -- the window starts within the live values, so the new cursor does not go back past zero
  obtain ⟨hlow, hhigh⟩ := Ring.window_bounds hamount hnone
  have hopen := openValues_le_live past.length r.live q.amount cursor
  have hlive := h.live_le_length
  have hnext : insertionsSince past.length (q.window (openValues past.length r.live q.amount cursor)).1 =
      past.length - (q.window (openValues past.length r.live q.amount cursor)).1 :=
    insertionsSince_of_le (by omega) hfew
  simp only [hnext]

namespace History

variable {α : Type}

/-- Before its counter comes round, it is the number of insertions. -/
theorem cursor_eq_length {h : History α} {past : List α} {recent : Nat} (hrec : h.ring.Records 0 past recent)
    (hfew : past.length ≤ lastWord) : h.cursor = past.length := by
  rw [cursor, hrec.written_eq, Nat.zero_add, Nat.mod_eq_of_lt (Nat.lt_succ_of_le hfew)]

/-- Whatever edits were made of a new history, fewer than `2 ^ 64` insertions in all, it answers every request of every
cursor as `Request.answer` says: the batch alone, or the batch behind what the caller's list held before, with the number
of values appended. -/
theorem answers_requests {capacity : Nat} (hpos : 0 < capacity) (hfit : capacity ≤ lastWord) (es : List (Edit α))
    (hfew : (Edit.inserted es).length ≤ lastWord) :
    ∃ h, (empty capacity).edits es = .ok h ∧ h.cursor = (Edit.inserted es).length ∧
      ∀ (q : Request) (cursor : Nat), cursor ≤ lastWord →
        h.read q cursor = .ok (q.answer (Edit.inserted es) h.size cursor) ∧
        ∀ target, h.readInto target q cursor =
          .ok ⟨(q.answer (Edit.inserted es) h.size cursor).batch.length,
            target ++ (q.answer (Edit.inserted es) h.size cursor).batch,
            (q.answer (Edit.inserted es) h.size cursor).cursor⟩ := by
  obtain ⟨h, hedits, -, hrec⟩ := edits_empty hpos hfit es
  have hcount := cursor_eq_length hrec hfew
  refine ⟨h, hedits, hcount, ?_⟩
  intro q cursor hcursor
  have hread : h.read q cursor = .ok (q.answer (Edit.inserted es) h.size cursor) :=
    hrec.read_eq_answer hcount q hcursor
  exact ⟨hread, Ring.readInto_eq_ok hread⟩

/-- A reader four insertions behind, three of them still held, takes two in order, across the end of the slots. -/
theorem answers_overrun_reader :
    0 < 3 ∧ 3 ≤ lastWord ∧ (Edit.inserted [.insertMany [10, 20, 30], .insert 40, .insert 50]).length ≤ lastWord ∧
      1 ≤ lastWord ∧
      ∃ h, (empty 3).edits [.insertMany [10, 20, 30], .insert 40, .insert 50] = .ok h ∧
        h.readInto [7] ⟨2, .continuous, true⟩ 1 = .ok ⟨2, [7, 30, 40], 4⟩ := by
  have hpos : 0 < 3 := by decide
  have hfit : 3 ≤ lastWord := by decide
  have hfew : (Edit.inserted [.insertMany [10, 20, 30], .insert 40, .insert 50]).length ≤ lastWord := by decide
  have hone : 1 ≤ lastWord := by decide
  obtain ⟨h, hedits, -, hanswers⟩ := answers_requests hpos hfit _ hfew
  obtain ⟨-, hinto⟩ := hanswers ⟨2, .continuous, true⟩ 1 hone
  have hthree : h.size = 3 := by
    obtain rfl := Except.ok.inj hedits
    rfl
  rw [hthree] at hinto
  exact ⟨hpos, hfit, hfew, hone, h, hedits, hinto [7]⟩

end History

end Lookback
