import Lookback.Proofs.History.Edits
import Lookback.Proofs.Ring.Reading
import Lookback.Proofs.Stretch

/-!
# Reading on from a cursor, wherever the counter stands

A reader takes the counter as its cursor, some values are inserted, and all of them are still held when the reader comes back.
As long as the counter has not passed the last word in between, it is given these values: the oldest of them by a continuous
read, the newest by a windowed one.

A read takes a cursor ahead of the counter for one that marks nothing. Where the counter came round to zero in between, the
cursor is ahead of it although it was given out by this very history, and either read brings the newest values, as many as
are asked for, whether they were inserted before the reader left or after (`reads_on`). So a continuous reader is led past
values and a windowed one back over values it has seen (`reads_on_past_last_word_false`).
-/

namespace Lookback

/-- The values open to a reader that took its cursor `added` insertions ago, when all of these are live: the values added
since, unless the counter came round in between. -/
theorem openValues_of_added {cursor added live amount : Nat} (hcursor : 0 < cursor) (hword : cursor ≤ lastWord)
    (hadded : added ≤ live) (hlive : live ≤ lastWord) :
    openValues ((cursor + added) % (lastWord + 1)) live amount cursor =
      if cursor + added ≤ lastWord then added else min amount live := by
  unfold openValues
  by_cases hround : cursor + added ≤ lastWord
  · have hbehind : 0 < cursor ∧ cursor ≤ cursor + added := by omega
    rw [Nat.mod_eq_of_lt (by omega), if_pos hbehind, if_pos hround]
    omega
  · have hahead : ¬(0 < cursor ∧ cursor ≤ cursor + added - (lastWord + 1)) := by omega
    rw [Cyclic.mod_of_past (by omega) (by omega), if_neg hahead, if_neg hround]

namespace Ring

variable {α : Type} {r r' : Ring α} {start recent recent' cursor amount : Nat} {past values : List α}

namespace Records

/-- The counter after further insertions. -/
theorem written_append (h : r.Records start past recent) (h' : r'.Records start (past ++ values) recent') :
    r'.written = (r.written + values.length) % (lastWord + 1) := by
  rw [h'.written_eq, h.written_eq, List.length_append, Nat.mod_add_mod, Nat.add_assoc]

/-- A read that is not exact and finds values open to it brings the window of its request. -/
theorem read_of_open (h : r.Records start past recent) {mode : ReadMode} (hcursor : cursor ≤ lastWord)
    (hamount : 0 < amount) (hopen : 0 < openValues r.written r.live amount cursor) :
    let w := (Request.mk amount mode false).window (openValues r.written r.live amount cursor)
    r.read ⟨amount, mode, false⟩ cursor =
      .ok ⟨past.extract (past.length - w.2) (past.length - w.1), insertionsSince r.written w.1⟩ := by
  have hsome : amount ≠ 0 := by omega
  have hnone : openValues r.written r.live amount cursor ≠ 0 := by omega
  rw [h.read_eq_ok _ hcursor]
  simp only [hsome, hnone, if_false, Bool.false_eq_true, false_and]

/-- Values that are all live are fewer than a turn of the counter. -/
theorem live_le_lastWord (h : r.Records start past recent) : r.live ≤ lastWord :=
  Nat.le_trans h.live_le_capacity h.capacity_le

/-- Before the counter comes round, a continuous read brings the oldest of the values added since its cursor was taken. -/
theorem read_continuous_of_added (h : r.Records start past recent) (h' : r'.Records start (past ++ values) recent')
    (hamount : 0 < amount) (hcursor : 0 < r.written) (hadded : 0 < values.length) (hheld : values.length ≤ r'.live)
    (hround : r.written + values.length ≤ lastWord) :
    r'.read ⟨amount, .continuous, false⟩ r.written =
      .ok ⟨values.take amount, r.written + min amount values.length⟩ := by
  have hwritten : r'.written = r.written + values.length := by
    rw [h.written_append h', Nat.mod_eq_of_lt (by omega)]
  have hopen : openValues r'.written r'.live amount r.written = values.length := by
    rw [h.written_append h', openValues_of_added hcursor h.written_le hheld h'.live_le_lastWord, if_pos hround]
  have hfirst : (past ++ values).length - values.length = past.length + 0 := by
    rw [List.length_append]
    omega
  have hlast : (past ++ values).length - (values.length - amount) = past.length + min amount values.length := by
    rw [List.length_append]
    omega
  have hnext : insertionsSince r'.written (values.length - amount) = r.written + min amount values.length := by
    rw [insertionsSince_of_le (by omega) h'.written_le]
    omega
  rw [h'.read_of_open h.written_le hamount (by omega)]
  simp only [Request.window, hopen, hfirst, hlast, hnext, Stretch.extract_append_right]
  rw [List.extract, List.drop_zero, Nat.sub_zero, ← List.take_eq_take_min]

/-- Before the counter comes round, a windowed read brings the newest of the values added since its cursor was taken. -/
theorem read_windowed_of_added (h : r.Records start past recent) (h' : r'.Records start (past ++ values) recent')
    (hamount : 0 < amount) (hcursor : 0 < r.written) (hadded : 0 < values.length) (hheld : values.length ≤ r'.live)
    (hround : r.written + values.length ≤ lastWord) :
    r'.read ⟨amount, .windowed, false⟩ r.written = .ok ⟨values.drop (values.length - amount), r'.written⟩ := by
  have hopen : openValues r'.written r'.live amount r.written = values.length := by
    rw [h.written_append h', openValues_of_added hcursor h.written_le hheld h'.live_le_lastWord, if_pos hround]
  have hfirst : (past ++ values).length - min values.length amount = past.length + (values.length - amount) := by
    rw [List.length_append]
    omega
  have hlast : (past ++ values).length - 0 = past.length + values.length := by
    rw [List.length_append]
    omega
  have hnext : insertionsSince r'.written 0 = r'.written := insertionsSince_of_le (Nat.zero_le _) h'.written_le
  rw [h'.read_of_open h.written_le hamount (by omega)]
  simp only [Request.window, hopen, hfirst, hlast, hnext, Stretch.extract_append_right, List.drop_eq_extract]

/-- Once the counter came round, either read brings the newest values, as many as are asked for. -/
theorem read_of_round (h : r.Records start past recent) (h' : r'.Records start (past ++ values) recent') (mode : ReadMode)
    (hamount : 0 < amount) (hcursor : 0 < r.written) (hadded : 0 < values.length) (hheld : values.length ≤ r'.live)
    (hround : lastWord < r.written + values.length) :
    r'.read ⟨amount, mode, false⟩ r.written =
      .ok ⟨(past ++ values).drop ((past ++ values).length - min amount r'.live), r'.written⟩ := by
  have hopen : openValues r'.written r'.live amount r.written = min amount r'.live := by
    rw [h.written_append h', openValues_of_added hcursor h.written_le hheld h'.live_le_lastWord,
      if_neg (Nat.not_le_of_lt hround)]
  have hwindow : (Request.mk amount mode false).window (min amount r'.live) = (0, min amount r'.live) := by
    cases mode with
    | windowed => simp [Request.window]
    | continuous =>
      simp only [Request.window, Prod.mk.injEq, and_true]
      omega
  have hnext : insertionsSince r'.written 0 = r'.written := insertionsSince_of_le (Nat.zero_le _) h'.written_le
  rw [h'.read_of_open h.written_le hamount (by omega)]
  simp only [hopen, hwindow, hnext, Nat.sub_zero, List.drop_eq_extract]

end Records

end Ring

namespace History

variable {α : Type}

/-- Whatever edits were made of a new history, wherever its counter began: a reader takes the counter, not zero, as its
cursor, and comes back when values were added that are all still held. If the counter did not pass the last word meanwhile, a
continuous read brings the oldest of the values added and a windowed one the newest of them, as many as were asked for. If it
did, either read brings the newest of all values held. -/
theorem reads_on {capacity start : Nat} (hpos : 0 < capacity) (hfit : capacity ≤ lastWord) (hstart : start ≤ lastWord)
    (es : List (Edit α)) (values : List α) {amount : Nat} (hamount : 0 < amount) :
    ∃ h h', (startingAt capacity start).edits es = .ok h ∧ h.insertMany values = .ok h' ∧
      h'.cursor = (h.cursor + values.length) % (lastWord + 1) ∧
      (0 < h.cursor → 0 < values.length → values.length ≤ h'.size →
        (h.cursor + values.length ≤ lastWord →
          h'.read ⟨amount, .continuous, false⟩ h.cursor =
            .ok ⟨values.take amount, h.cursor + min amount values.length⟩ ∧
          h'.read ⟨amount, .windowed, false⟩ h.cursor = .ok ⟨values.drop (values.length - amount), h'.cursor⟩) ∧
        (lastWord < h.cursor + values.length → ∀ mode,
          h'.read ⟨amount, mode, false⟩ h.cursor =
            .ok ⟨(Edit.inserted es ++ values).drop ((Edit.inserted es ++ values).length - min amount h'.size),
              h'.cursor⟩)) := by
  obtain ⟨h, hedits, -, hrec⟩ := edits_eq_ok hpos hfit hstart es
  obtain ⟨r, hinsert, -, hrec'⟩ := hrec.insertMany values
  refine ⟨h, ⟨r⟩, hedits, ?_, hrec.written_append hrec', ?_⟩
  · rw [History.insertMany, hinsert, ok_bind]
  · intro hcursor hadded hheld
    constructor
    · intro hround
      exact ⟨hrec.read_continuous_of_added hrec' hamount hcursor hadded hheld hround,
        hrec.read_windowed_of_added hrec' hamount hcursor hadded hheld hround⟩
    · intro hround mode
      exact hrec.read_of_round hrec' mode hamount hcursor hadded hheld hround

/-- The counter goes on to the last word and no further: a reader of two gets the oldest two of the three values added. -/
theorem reads_on_to_last_word :
    0 < 4 ∧ 4 ≤ lastWord ∧ lastWord - 5 ≤ lastWord ∧ 0 < 2 ∧
      ∃ h h', (startingAt 4 (lastWord - 5)).edits [.insert 1, .clear, .insert 2] = .ok h ∧ 0 < h.cursor ∧
        h.insertMany [3, 4, 5] = .ok h' ∧ [3, 4, 5].length ≤ h'.size ∧ h.cursor + [3, 4, 5].length ≤ lastWord ∧
        h'.read ⟨2, .continuous, false⟩ h.cursor = .ok ⟨[3, 4], h.cursor + 2⟩ ∧
        h'.read ⟨2, .windowed, false⟩ h.cursor = .ok ⟨[4, 5], h'.cursor⟩ := by
  have hpos : 0 < 4 := by decide
  have hfit : 4 ≤ lastWord := by decide
  have hstart : lastWord - 5 ≤ lastWord := Nat.sub_le _ _
  have hamount : 0 < 2 := by decide
  obtain ⟨h, h', hedits, hinsert, -, hreads⟩ :=
    reads_on hpos hfit hstart [.insert 1, .clear, .insert 2] [3, 4, 5] hamount
  have hnew : (startingAt 4 (lastWord - 5)).edits [.insert 1, .clear, .insert 2] =
      .ok ⟨⟨#[1, 2], 4, 2, 1, lastWord - 3⟩⟩ := by cbv
  obtain rfl := Except.ok.inj (hedits.symm.trans hnew)
  have hadded : (⟨⟨#[1, 2], 4, 2, 1, lastWord - 3⟩⟩ : History Nat).insertMany [3, 4, 5] =
      .ok ⟨⟨#[5, 2, 3, 4], 4, 1, 4, lastWord⟩⟩ := by cbv
  obtain rfl := Except.ok.inj (hinsert.symm.trans hadded)
  obtain ⟨hbefore, -⟩ := hreads (by decide) (by decide) (by decide)
  obtain ⟨hcontinuous, hwindowed⟩ := hbefore (by decide)
  exact ⟨hpos, hfit, hstart, hamount, _, _, hedits, by decide, hinsert, by decide, by decide, hcontinuous, hwindowed⟩

/-- Five values in eight slots, the last three added while the counter comes round: a reader of two is led past the first of
them, a reader of four gets one back that it had before. -/
theorem reads_on_past_last_word_false :
    ∃ h h', (startingAt 8 (lastWord - 2)).edits [.insertMany [10, 20]] = .ok h ∧ h.cursor = lastWord ∧
      h.insertMany [30, 40, 50] = .ok h' ∧ [30, 40, 50].length ≤ h'.size ∧
      h'.read ⟨2, .continuous, false⟩ lastWord = .ok ⟨[40, 50], 2⟩ ∧ [40, 50] ≠ [30, 40, 50].take 2 ∧
      h'.read ⟨4, .windowed, false⟩ lastWord = .ok ⟨[20, 30, 40, 50], 2⟩ ∧
      [20, 30, 40, 50] ≠ [30, 40, 50].drop ([30, 40, 50].length - 4) := by
  refine ⟨⟨⟨#[10, 20], 8, 2, 2, lastWord⟩⟩, ⟨⟨#[10, 20, 30, 40, 50], 8, 5, 5, 2⟩⟩, ?_, rfl, ?_, ?_, ?_, ?_, ?_, ?_⟩
  · cbv
  · cbv
  · decide
  · cbv
  · decide
  · cbv
  · decide

end History

end Lookback
