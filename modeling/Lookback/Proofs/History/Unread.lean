import Lookback.Proofs.History.Answers
import Lookback.Proofs.Stretch

/-!
# What the number of unread values foretells

A reader can ask how many values are unread before it asks for them. The number is counted on the cycle of all words, for any
cursor alike, while a read sorts cursors first: one that marks a past insertion, none at all, one ahead of the counter. As long
as the counter has not come round, at least as many values were inserted as are live, so a cursor that marks nothing has every
live value unread (`min_openValues`), and the number foretells the batch: it is all of the unread values, or as many as are asked
for (`unread_foretells_read`).
-/

namespace Lookback

/-- From a cursor ahead of the counter, the way forward passes zero. -/
theorem insertionsSince_of_lt {written cursor : Nat} (hlt : written < cursor) (hcursor : cursor ≤ lastWord) :
    insertionsSince written cursor = written + (lastWord + 1) - cursor :=
  Nat.mod_eq_of_lt (by omega)

/-- Counted back from the counter and forward again. -/
theorem insertionsSince_back {written low : Nat} (hlow : low ≤ written) (hfit : written ≤ lastWord) :
    insertionsSince written (insertionsSince written low) = low := by
  rw [insertionsSince_of_le hlow hfit, insertionsSince_of_le (Nat.sub_le _ _) hfit]
  omega

/-- Up to the number asked for, the values open to a request are the unread ones, if no more are live than were ever inserted. -/
theorem min_openValues {written live cursor : Nat} (hlive : live ≤ written) (hfit : written ≤ lastWord)
    (hcursor : cursor ≤ lastWord) (amount : Nat) :
    min amount (openValues written live amount cursor) = min amount (min (insertionsSince written cursor) live) := by
  unfold openValues
  by_cases hpast : 0 < cursor ∧ cursor ≤ written
  · rw [if_pos hpast, insertionsSince_of_le hpast.2 hfit]
  · have hall : live ≤ insertionsSince written cursor := by
      by_cases hzero : cursor = 0
      · rwa [hzero, insertionsSince_of_le (Nat.zero_le _) hfit]
      · rw [insertionsSince_of_lt (by omega) hcursor]
        omega
    rw [if_neg hpast]
    omega

namespace Ring

variable {α : Type} {r : Ring α} {start recent cursor : Nat} {past : List α}

namespace Records

/-- As many values are unread as a cursor was put back from the counter. -/
theorem unread_back (h : r.Records start past recent) (hlive : r.live ≤ r.written) {low : Nat} (hlow : low ≤ r.live) :
    r.unread (insertionsSince r.written low) = .ok low := by
  have hback : insertionsSince r.written low ≤ lastWord := Cyclic.mod_le_limit _ _
  rw [unread_eq_ok h.written_le hback, insertionsSince_back (Nat.le_trans hlow hlive) h.written_le, Nat.min_eq_left hlow]

/-- Where no more values are live than were ever inserted, a read that takes any batch brings the unread values, as many as are
asked for. Then none is unread after a windowed read, and after a continuous one from a cursor that marks a past insertion those
that the batch left. -/
theorem read_unread (h : r.Records start past recent) (hlive : r.live ≤ r.written) (hcursor : cursor ≤ lastWord)
    {q : Request} (hany : q.exact = false) :
    ∃ batch next rest, r.read q cursor = .ok ⟨batch, next⟩ ∧ r.unread next = .ok rest ∧
      batch.length = min q.amount (min (insertionsSince r.written cursor) r.live) ∧
      (q.mode = .windowed → rest = 0) ∧
      (q.mode = .continuous → 0 < cursor → cursor ≤ r.written → 0 < q.amount →
        rest = min (insertionsSince r.written cursor) r.live - batch.length) := by
  by_cases hamount : q.amount = 0
  · refine ⟨[], insertionsSince r.written 0, 0, ?_, h.unread_back hlive (Nat.zero_le _), by simp [hamount], fun _ => rfl,
      fun _ _ _ hpos => absurd hpos (by omega)⟩
    rw [h.read_eq_ok _ hcursor, if_pos hamount, insertionsSince_of_le (Nat.zero_le _) h.written_le, Nat.sub_zero]
  have hpast := h.live_le_length
  have hforetold := min_openValues hlive h.written_le hcursor q.amount
  have hopen := openValues_le_live r.written r.live q.amount cursor
  obtain ⟨hle, hhigh, hlength⟩ := length_window q (openValues r.written r.live q.amount cursor)
  have hread := h.read_of_granted hcursor hamount (by simp [hany])
  have hbatch : (past.extract (past.length - (q.window (openValues r.written r.live q.amount cursor)).2)
      (past.length - (q.window (openValues r.written r.live q.amount cursor)).1)).length =
      min q.amount (min (insertionsSince r.written cursor) r.live) := by
    rw [Stretch.length_extract (Nat.sub_le _ _)]
    omega
  refine ⟨_, _, _, hread, h.unread_back hlive (by omega), hbatch, ?_, ?_⟩
  · intro hmode
    simp only [Request.window, hmode]
  · intro hmode hpos hbehind _
    have hunread : openValues r.written r.live q.amount cursor = min (insertionsSince r.written cursor) r.live := by
      rw [insertionsSince_of_le hbehind h.written_le]
      exact if_pos ⟨hpos, hbehind⟩
    have hleft : ∀ unread amount : Nat, unread - amount = unread - min amount unread := by
      intro unread amount
      omega
    rw [hbatch, hunread]
    simp only [Request.window, hmode]
    exact hleft _ _

end Records

end Ring

namespace History

variable {α : Type}

/-- Whatever edits were made of a new history, fewer than `2 ^ 64` insertions in all: whatever its cursor, a reader that takes any
batch gets as many values as are unread, or as many as it asks for. After a windowed read nothing is unread; after a continuous
one for something, from a cursor that marks a past insertion, what is unread is what the batch left. -/
theorem unread_foretells_read {capacity : Nat} (hpos : 0 < capacity) (hfit : capacity ≤ lastWord) (es : List (Edit α))
    (hfew : (Edit.inserted es).length ≤ lastWord) :
    ∃ h, (empty capacity).edits es = .ok h ∧
      ∀ (amount : Nat) (mode : ReadMode) (cursor : Nat), cursor ≤ lastWord →
        ∃ unread batch next rest, h.unread cursor = .ok unread ∧
          h.read ⟨amount, mode, false⟩ cursor = .ok ⟨batch, next⟩ ∧ h.unread next = .ok rest ∧
          batch.length = min amount unread ∧
          (mode = .windowed → rest = 0) ∧
          (mode = .continuous → 0 < cursor → cursor ≤ h.cursor → 0 < amount → rest = unread - batch.length) := by
  obtain ⟨h, hedits, -, hrec⟩ := edits_empty hpos hfit es
  have hlive : h.ring.live ≤ h.ring.written := by
    have hcount : h.ring.written = (Edit.inserted es).length := cursor_eq_length hrec hfew
    rw [hcount]
    exact hrec.live_le_length
  refine ⟨h, hedits, ?_⟩
  intro amount mode cursor hcursor
  obtain ⟨batch, next, rest, hread, hrest, hlength, hwindowed, hcontinuous⟩ :=
    hrec.read_unread hlive hcursor (q := ⟨amount, mode, false⟩) rfl
  exact ⟨_, batch, next, rest, Ring.unread_eq_ok hrec.written_le hcursor, hread, hrest, hlength, hwindowed, hcontinuous⟩

/-- Five values in three slots, the first two cleared. A reader that saw one value finds three unread and takes two of them; one is
left. A reader whose cursor was never given out finds three unread as well, and takes them all. -/
theorem unread_foretells_overrun_read :
    0 < 3 ∧ 3 ≤ lastWord ∧ (Edit.inserted [.insertMany [10, 20], .clear, .insertMany [30, 40, 50]]).length ≤ lastWord ∧
      1 ≤ lastWord ∧ 9 ≤ lastWord ∧
      ∃ h, (empty 3).edits [.insertMany [10, 20], .clear, .insertMany [30, 40, 50]] = .ok h ∧ 1 ≤ h.cursor ∧
        (h.unread 1 = .ok 3 ∧ h.read ⟨2, .continuous, false⟩ 1 = .ok ⟨[30, 40], 4⟩ ∧ h.unread 4 = .ok (3 - 2)) ∧
        h.unread 9 = .ok 3 ∧ h.read ⟨7, .windowed, false⟩ 9 = .ok ⟨[30, 40, 50], 5⟩ ∧ h.unread 5 = .ok 0 := by
  have hpos : 0 < 3 := by decide
  have hfit : 3 ≤ lastWord := by decide
  have hfew : (Edit.inserted [.insertMany [10, 20], .clear, .insertMany [30, 40, 50]]).length ≤ lastWord := by decide
  have hone : 1 ≤ lastWord := by decide
  have hnine : 9 ≤ lastWord := by decide
  obtain ⟨h, hedits, hreads⟩ := unread_foretells_read hpos hfit [.insertMany [10, 20], .clear, .insertMany [30, 40, 50]] hfew
  have hnew : (empty 3).edits [.insertMany [10, 20], .clear, .insertMany [30, 40, 50]] =
      .ok ⟨⟨#[40, 50, 30], 3, 2, 3, 5⟩⟩ := by cbv
  obtain rfl := Except.ok.inj (hedits.symm.trans hnew)
  refine ⟨hpos, hfit, hfew, hone, hnine, _, hedits, by decide, ?_, ?_⟩
  · obtain ⟨unread, batch, next, rest, hunread, hread, hrest, -, -, hleft⟩ := hreads 2 .continuous 1 hone
    have hthree : (⟨⟨#[40, 50, 30], 3, 2, 3, 5⟩⟩ : History Nat).unread 1 = .ok 3 := by cbv
    have hbatch : (⟨⟨#[40, 50, 30], 3, 2, 3, 5⟩⟩ : History Nat).read ⟨2, .continuous, false⟩ 1 = .ok ⟨[30, 40], 4⟩ := by cbv
    obtain rfl := Except.ok.inj (hunread.symm.trans hthree)
    obtain ⟨rfl, rfl⟩ := Reading.mk.inj (Except.ok.inj (hread.symm.trans hbatch))
    obtain rfl := hleft rfl (by decide) (by decide) (by decide)
    exact ⟨hunread, hread, hrest⟩
  · obtain ⟨unread, batch, next, rest, hunread, hread, hrest, -, hnone, -⟩ := hreads 7 .windowed 9 hnine
    have hthree : (⟨⟨#[40, 50, 30], 3, 2, 3, 5⟩⟩ : History Nat).unread 9 = .ok 3 := by cbv
    have hbatch : (⟨⟨#[40, 50, 30], 3, 2, 3, 5⟩⟩ : History Nat).read ⟨7, .windowed, false⟩ 9 = .ok ⟨[30, 40, 50], 5⟩ := by
      cbv
    obtain rfl := Except.ok.inj (hunread.symm.trans hthree)
    obtain ⟨rfl, rfl⟩ := Reading.mk.inj (Except.ok.inj (hread.symm.trans hbatch))
    obtain rfl := hnone rfl
    exact ⟨hunread, hread, hrest⟩

end History

end Lookback
