import Lookback.Proofs.Ring.Lookup
import Lookback.Proofs.Stretch
import Lookback.Ring.Read

/-!
# What a read of a ring brings

A read compares its cursor with the insertion counter twice: `unread` counts the insertions since the cursor on the cycle of
all words, `available` compares the two as plain numbers. Both are stated here in exact integers, and with them what a read
brings from the past that a ring records (`Records.read_eq_ok`).
-/

namespace Lookback

/-- The number of insertions that take a counter from `cursor` to `written`, on the cycle of all words. -/
def insertionsSince (written cursor : Nat) : Nat :=
  (written + (lastWord + 1) - cursor) % (lastWord + 1)

/-- The number of newest values that are open to a reader at `cursor` who asks for `amount`, when `live` values are live and
the counter stands at `written`. -/
def openValues (written live amount cursor : Nat) : Nat :=
  if 0 < cursor ∧ cursor ≤ written then min (written - cursor) live else min amount live

/-- A cursor that the counter has not passed the end of its cycle since is simply subtracted. -/
theorem insertionsSince_of_le {written cursor : Nat} (hle : cursor ≤ written) (hfit : written ≤ lastWord) :
    insertionsSince written cursor = written - cursor := by
  have hmove : written + (lastWord + 1) - cursor = written - cursor + (lastWord + 1) := by omega
  unfold insertionsSince
  rw [hmove, Nat.add_mod_right, Nat.mod_eq_of_lt (by omega)]

theorem openValues_le_live (written live amount cursor : Nat) : openValues written live amount cursor ≤ live := by
  unfold openValues
  split <;> exact Nat.min_le_right _ _

/-- Where enough values are unread, enough are open, whatever the cursor. -/
theorem le_openValues_of_unread {written live amount cursor : Nat} (hfit : written ≤ lastWord)
    (hunread : amount ≤ min (insertionsSince written cursor) live) : amount ≤ openValues written live amount cursor := by
  unfold openValues
  by_cases hpast : 0 < cursor ∧ cursor ≤ written
  · rwa [if_pos hpast, ← insertionsSince_of_le hpast.2 hfit]
  · rw [if_neg hpast]
    omega

namespace Ring

variable {α : Type} {r : Ring α} {start recent cursor : Nat} {past : List α}

/-- The counter never leaves its word. -/
theorem Records.written_le (h : r.Records start past recent) : r.written ≤ lastWord := by
  rw [h.written_eq]
  exact Cyclic.mod_le_limit _ _

theorem insertionsSince_eq_ok (hwritten : r.written ≤ lastWord) (hcursor : cursor ≤ lastWord) :
    Cyclic.sub .w64 r.written cursor lastWord = .ok (insertionsSince r.written cursor) :=
  Cyclic.sub_eq_ok hwritten hcursor lastWord_le

theorem unread_eq_ok (hwritten : r.written ≤ lastWord) (hcursor : cursor ≤ lastWord) :
    r.unread cursor = .ok (min (insertionsSince r.written cursor) r.live) := by
  unfold unread
  rw [insertionsSince_eq_ok hwritten hcursor, ok_bind]

theorem available_eq_ok (hwritten : r.written ≤ lastWord) (amount : Nat) :
    r.available amount cursor = .ok (openValues r.written r.live amount cursor) := by
  unfold available openValues
  by_cases hpast : 0 < cursor ∧ cursor ≤ r.written
  · rw [if_pos hpast, if_pos hpast, unread_eq_ok hwritten (Nat.le_trans hpast.2 hwritten),
      insertionsSince_of_le hpast.2 hwritten]
  · rw [if_neg hpast, if_neg hpast]

theorem fallsShort_eq_ok (hwritten : r.written ≤ lastWord) (hcursor : cursor ≤ lastWord) (q : Request) :
    r.fallsShort q cursor =
      .ok (decide (q.exact = true ∧ min (insertionsSince r.written cursor) r.live < q.amount)) := by
  unfold fallsShort
  by_cases hexact : q.exact = true
  · rw [if_pos hexact, unread_eq_ok hwritten hcursor, ok_bind]
    simp [hexact]
  · rw [if_neg hexact]
    simp [hexact]

/-- The window of a request holds the values open to it, as many of them as are asked for. -/
theorem length_window (q : Request) (available : Nat) :
    (q.window available).1 ≤ (q.window available).2 ∧ (q.window available).2 ≤ available ∧
      (q.window available).2 - (q.window available).1 = min q.amount available := by
  unfold Request.window
  cases q.mode with
  | windowed =>
    simp only
    omega
  | continuous =>
    simp only
    omega

/-- The window of a request lies within the values open to it, and takes at least one of them. -/
theorem window_bounds {q : Request} {available : Nat} (hamount : q.amount ≠ 0) (havailable : available ≠ 0) :
    (q.window available).1 < (q.window available).2 ∧ (q.window available).2 ≤ available := by
  obtain ⟨-, hopen, hlength⟩ := length_window q available
  exact ⟨by omega, hopen⟩

/-- What a read brings: nothing where the request asks for nothing, falls short or finds nothing open, and otherwise the
window of the values open to it, with the cursor at the end of that window. -/
theorem Records.read_eq_ok (h : r.Records start past recent) (q : Request) (hcursor : cursor ≤ lastWord) :
    r.read q cursor = .ok (
      if q.amount = 0 then ⟨[], r.written⟩
      else if q.exact = true ∧ min (insertionsSince r.written cursor) r.live < q.amount then ⟨[], cursor⟩
      else if openValues r.written r.live q.amount cursor = 0 then ⟨[], r.written⟩
      else
        let w := q.window (openValues r.written r.live q.amount cursor)
        ⟨past.extract (past.length - w.2) (past.length - w.1), insertionsSince r.written w.1⟩) := by
  unfold read
  by_cases hamount : q.amount = 0
  · rw [if_pos hamount, if_pos hamount]
  rw [if_neg hamount, if_neg hamount, fallsShort_eq_ok h.written_le hcursor, ok_bind]
  by_cases hshort : q.exact = true ∧ min (insertionsSince r.written cursor) r.live < q.amount
  · rw [if_pos (decide_eq_true hshort), if_pos hshort]
  rw [if_neg (by simpa using hshort), if_neg hshort, available_eq_ok h.written_le, ok_bind]
  by_cases hnone : openValues r.written r.live q.amount cursor = 0
  · rw [if_pos hnone, if_pos hnone]
  rw [if_neg hnone, if_neg hnone]
  obtain ⟨hlow, hhigh⟩ := window_bounds hamount hnone
  have hopen := openValues_le_live r.written r.live q.amount cursor
  have hlive := h.live_le_capacity
  have hcapacity := h.capacity_le
  have hstart : (q.window (openValues r.written r.live q.amount cursor)).1 ≤ lastWord := by omega
  simp only [h.window_eq_ok hlow (Nat.le_trans hhigh hopen), insertionsSince_eq_ok h.written_le hstart, ok_bind]

/-- A request for something that is not refused brings the window of the values open to it, even where that is empty. -/
theorem Records.read_of_granted (h : r.Records start past recent) {q : Request} (hcursor : cursor ≤ lastWord)
    (hamount : q.amount ≠ 0)
    (hgranted : ¬(q.exact = true ∧ min (insertionsSince r.written cursor) r.live < q.amount)) :
    let w := q.window (openValues r.written r.live q.amount cursor)
    r.read q cursor = .ok ⟨past.extract (past.length - w.2) (past.length - w.1), insertionsSince r.written w.1⟩ := by
  rw [h.read_eq_ok q hcursor, if_neg hamount, if_neg hgranted]
  by_cases hnone : openValues r.written r.live q.amount cursor = 0
  · have hempty : q.window 0 = (0, 0) := by
      unfold Request.window
      cases q.mode <;> simp
    have hstay : insertionsSince r.written 0 = r.written := insertionsSince_of_le (Nat.zero_le _) h.written_le
    simp only [hnone, hempty, hstay, if_true, Nat.sub_zero]
    rw [Stretch.extract_self]
  · rw [if_neg hnone]

end Ring

end Lookback
