import Lookback.Proofs.History.Edits
import Lookback.Proofs.Ring.Copying
import Lookback.Proofs.Ring.Reading
import Lookback.Proofs.Stretch

/-!
# Batches, wherever the counter stands

The insertion counter of a history comes round to zero, and a cursor may be any word: taken before that, taken after it, or
never given out at all. Whatever it is, no read fails. A batch is a stretch of the values still held, no longer than was asked
for, and the cursor to go on with stands right behind it (`reads_held_stretch`). A request for full batches gets one if that
many values are unread, and otherwise neither a value nor a new cursor (`exact_reads_all_or_nothing`).

Two counts decide this, and they treat the cursor differently: the unread values are counted on the cycle of all words, the
values open to a request by comparing cursor and counter as they stand. What keeps them together is that enough unread values
are always enough open ones (`le_openValues_of_unread`).
-/

namespace Lookback

namespace History

variable {α : Type}

namespace Edit

/-- The values that a history of some capacity still holds after edits: the last ones since the last clear. -/
def held (capacity : Nat) (es : List (Edit α)) : List α := (sinceClear es).drop ((sinceClear es).length - capacity)

theorem length_held (capacity : Nat) (es : List (Edit α)) :
    (held capacity es).length = min (sinceClear es).length capacity := by
  rw [held, List.length_drop]
  omega

theorem held_suffix (capacity : Nat) (es : List (Edit α)) : held capacity es <:+ inserted es :=
  (List.drop_suffix _ _).trans (sinceClear_suffix es)

/-- The values held are what the past ends with. -/
theorem held_eq_drop (capacity : Nat) (es : List (Edit α)) :
    held capacity es = (inserted es).drop ((inserted es).length - (held capacity es).length) :=
  List.suffix_iff_eq_drop.mp (held_suffix capacity es)

end Edit

end History

namespace Ring

variable {α : Type} {r : Ring α} {start recent cursor : Nat} {past : List α} {q : Request}

/-- A read brings the values of the past from `high` to `low` places before its end, all of them live. Unless it was refused,
its cursor is the counter, put back by `low`, and nothing is put back where nothing is brought. -/
theorem Records.read_stretch (h : r.Records start past recent) (q : Request) (hcursor : cursor ≤ lastWord) :
    ∃ low high next, low ≤ high ∧ high ≤ r.live ∧ high - low ≤ q.amount ∧
      r.read q cursor = .ok ⟨past.extract (past.length - high) (past.length - low), next⟩ ∧
      (q.exact = true ∧ min (insertionsSince r.written cursor) r.live < q.amount → high = 0 ∧ next = cursor) ∧
      (¬(q.exact = true ∧ min (insertionsSince r.written cursor) r.live < q.amount) →
        next = insertionsSince r.written low ∧ (low = high → low = 0)) := by
  have hstay : insertionsSince r.written 0 = r.written := insertionsSince_of_le (Nat.zero_le _) h.written_le
  by_cases hshort : q.exact = true ∧ min (insertionsSince r.written cursor) r.live < q.amount
  · have hamount : q.amount ≠ 0 := by omega
    refine ⟨0, 0, cursor, Nat.le_refl 0, Nat.zero_le _, Nat.zero_le _, ?_, fun _ => ⟨rfl, rfl⟩, fun hgranted => ?_⟩
    · rw [h.read_eq_ok q hcursor, if_neg hamount, if_pos hshort, Stretch.extract_self]
    · exact absurd hshort hgranted
  by_cases hamount : q.amount = 0
  · refine ⟨0, 0, r.written, Nat.le_refl 0, Nat.zero_le _, Nat.zero_le _, ?_, fun h => absurd h hshort, fun _ => ?_⟩
    · rw [h.read_eq_ok q hcursor, if_pos hamount, Stretch.extract_self]
    · exact ⟨hstay.symm, fun _ => rfl⟩
  · have hread := h.read_of_granted hcursor hamount hshort
    obtain ⟨hle, hopen, hlength⟩ := length_window q (openValues r.written r.live q.amount cursor)
    have hlive := openValues_le_live r.written r.live q.amount cursor
    refine ⟨_, _, _, hle, Nat.le_trans hopen hlive, by omega, hread, fun h => absurd h hshort, fun _ => ⟨rfl, ?_⟩⟩
    intro hnone
    omega

/-- Where enough values are unread, a read brings a full batch. -/
theorem Records.read_of_unread (h : r.Records start past recent) (hamount : q.amount ≠ 0) (hcursor : cursor ≤ lastWord)
    (hunread : q.amount ≤ min (insertionsSince r.written cursor) r.live) :
    ∃ batch next, r.read q cursor = .ok ⟨batch, next⟩ ∧ batch.length = q.amount := by
  have hgranted : ¬(q.exact = true ∧ min (insertionsSince r.written cursor) r.live < q.amount) := by omega
  have henough := le_openValues_of_unread h.written_le hunread
  have hlive := openValues_le_live r.written r.live q.amount cursor
  have hpast := h.live_le_length
  obtain ⟨hle, hopen, hlength⟩ := length_window q (openValues r.written r.live q.amount cursor)
  refine ⟨_, _, h.read_of_granted hcursor hamount hgranted, ?_⟩
  rw [Stretch.length_extract (Nat.sub_le _ _)]
  omega

end Ring

namespace History

variable {α : Type}

/-- Whatever edits were made of a new history, wherever its counter began: it answers every request of every cursor. The batch is
a stretch of the values held, at most as many as were asked for. Only a request for a full batch of more values than are unread
is refused; after any other the cursor is the counter, put back by the number of values held behind the batch, and the counter
itself where the batch is empty. -/
theorem reads_held_stretch {capacity start : Nat} (hpos : 0 < capacity) (hfit : capacity ≤ lastWord)
    (hstart : start ≤ lastWord) (es : List (Edit α)) :
    ∃ h, (startingAt capacity start).edits es = .ok h ∧ h.size = (Edit.held capacity es).length ∧
      ∀ (q : Request) (cursor : Nat), cursor ≤ lastWord →
        ∃ unread batch next, h.unread cursor = .ok unread ∧ h.read q cursor = .ok ⟨batch, next⟩ ∧
          (∀ target, h.readInto target q cursor = .ok ⟨batch.length, target ++ batch, next⟩) ∧
          batch.length ≤ min q.amount h.size ∧
          ∃ older newer, Edit.held capacity es = older ++ batch ++ newer ∧
            (q.exact = true ∧ unread < q.amount → batch = [] ∧ next = cursor) ∧
            (¬(q.exact = true ∧ unread < q.amount) →
              next = (h.cursor + (lastWord + 1) - newer.length) % (lastWord + 1) ∧ (batch = [] → next = h.cursor)) := by
  obtain ⟨h, hedits, hcapacity, hrec⟩ := edits_eq_ok hpos hfit hstart es
  have hsize : h.size = (Edit.held capacity es).length := by
    rw [Edit.length_held, size, hrec.live_eq, ← hcapacity, History.capacity]
  have hlive : h.size ≤ (Edit.inserted es).length := hrec.live_le_length
  refine ⟨h, hedits, hsize, ?_⟩
  intro q cursor hcursor
  have hunread : h.unread cursor = .ok (min (insertionsSince h.cursor cursor) h.size) :=
    Ring.unread_eq_ok hrec.written_le hcursor
  obtain ⟨low, high, next, hle, hhigh, hamount, hread, hrefused, hgranted⟩ := hrec.read_stretch q hcursor
  change high ≤ h.size at hhigh
  have hlength : ((Edit.inserted es).extract ((Edit.inserted es).length - high) ((Edit.inserted es).length - low)).length =
      high - low := by
    rw [Stretch.length_extract (Nat.sub_le _ _)]
    omega
  refine ⟨_, _, next, hunread, hread, Ring.readInto_eq_ok hread, by omega,
    (Edit.inserted es).extract ((Edit.inserted es).length - h.size) ((Edit.inserted es).length - high),
    (Edit.inserted es).drop ((Edit.inserted es).length - low), ?_, ?_, ?_⟩
  · rw [Stretch.extract_append_extract (by omega) (by omega), Stretch.extract_append_drop (by omega), hsize,
      ← Edit.held_eq_drop]
  · intro hshort
    obtain ⟨rfl, hnext⟩ := hrefused hshort
    obtain rfl : low = 0 := Nat.le_zero.mp hle
    exact ⟨Stretch.extract_self _ _, hnext⟩
  · intro hshort
    obtain ⟨hnext, hnone⟩ := hgranted hshort
    have hnewer : ((Edit.inserted es).drop ((Edit.inserted es).length - low)).length = low := by
      rw [List.length_drop]
      omega
    rw [hnewer]
    refine ⟨hnext, ?_⟩
    intro hbatch
    rw [hbatch, List.length_nil] at hlength
    rw [hnext, hnone (by omega)]
    exact insertionsSince_of_le (Nat.zero_le _) hrec.written_le

/-- The counter came round to 1. A reader from before that is led on to the newest values; one that wants a full batch of more
values than are held gets none and keeps its cursor. -/
theorem reads_held_stretch_after_round :
    0 < 3 ∧ 3 ≤ lastWord ∧ lastWord - 3 ≤ lastWord ∧ lastWord - 1 ≤ lastWord ∧
      ∃ h, (startingAt 3 (lastWord - 3)).edits [.insert 1, .clear, .insertMany [2, 3, 4, 5]] = .ok h ∧ h.cursor = 1 ∧
        h.readInto [7] ⟨2, .continuous, false⟩ (lastWord - 1) = .ok ⟨2, [7, 4, 5], 1⟩ ∧
        (∃ older newer, [3, 4, 5] = older ++ [4, 5] ++ newer ∧ 1 = (1 + (lastWord + 1) - newer.length) % (lastWord + 1)) ∧
        h.readInto [7] ⟨4, .windowed, true⟩ (lastWord - 1) = .ok ⟨0, [7], lastWord - 1⟩ := by
  have hpos : 0 < 3 := by decide
  have hfit : 3 ≤ lastWord := by decide
  have hstart : lastWord - 3 ≤ lastWord := Nat.sub_le _ _
  have hcursor : lastWord - 1 ≤ lastWord := Nat.sub_le _ _
  obtain ⟨h, hedits, -, hreads⟩ :=
    reads_held_stretch hpos hfit hstart [.insert 1, .clear, .insertMany [2, 3, 4, 5]]
  have hnew : (startingAt 3 (lastWord - 3)).edits [.insert 1, .clear, .insertMany [2, 3, 4, 5]] =
      .ok ⟨⟨#[4, 5, 3], 3, 2, 3, 1⟩⟩ := by cbv
  obtain rfl := Except.ok.inj (hedits.symm.trans hnew)
  refine ⟨hpos, hfit, hstart, hcursor, _, hedits, rfl, ?_⟩
  obtain ⟨unread, batch, next, -, hread, hinto, -, older, newer, hheld, -, hgranted⟩ :=
    hreads ⟨2, .continuous, false⟩ (lastWord - 1) hcursor
  have hbatch : (⟨⟨#[4, 5, 3], 3, 2, 3, 1⟩⟩ : History Nat).read ⟨2, .continuous, false⟩ (lastWord - 1) = .ok ⟨[4, 5], 1⟩ := by
    cbv
  obtain ⟨rfl, rfl⟩ := Reading.mk.inj (Except.ok.inj (hread.symm.trans hbatch))
  refine ⟨hinto [7], ⟨older, newer, hheld, (hgranted (by simp)).1⟩, ?_⟩
  obtain ⟨unread, batch, next, hunread, -, hinto, -, -, -, -, hrefused, -⟩ :=
    hreads ⟨4, .windowed, true⟩ (lastWord - 1) hcursor
  have hthree : (⟨⟨#[4, 5, 3], 3, 2, 3, 1⟩⟩ : History Nat).unread (lastWord - 1) = .ok 3 := by cbv
  obtain rfl := Except.ok.inj (hunread.symm.trans hthree)
  obtain ⟨rfl, rfl⟩ := hrefused (by decide)
  exact hinto [7]

/-- Whatever edits were made of a new history, wherever its counter began: a request for a full batch appends exactly that many
values if they are unread, and otherwise leaves the caller's list and cursor as they were. -/
theorem exact_reads_all_or_nothing {capacity start : Nat} (hpos : 0 < capacity) (hfit : capacity ≤ lastWord)
    (hstart : start ≤ lastWord) (es : List (Edit α)) :
    ∃ h, (startingAt capacity start).edits es = .ok h ∧
      ∀ (amount : Nat) (mode : ReadMode) (cursor : Nat), 0 < amount → cursor ≤ lastWord →
        ∃ unread, h.unread cursor = .ok unread ∧
          (amount ≤ unread → ∃ batch next, batch.length = amount ∧ ∀ target,
            h.readInto target ⟨amount, mode, true⟩ cursor = .ok ⟨amount, target ++ batch, next⟩) ∧
          (unread < amount → ∀ target,
            h.readInto target ⟨amount, mode, true⟩ cursor = .ok ⟨0, target, cursor⟩) := by
  obtain ⟨h, hedits, -, hrec⟩ := edits_eq_ok hpos hfit hstart es
  refine ⟨h, hedits, ?_⟩
  intro amount mode cursor hamount hcursor
  refine ⟨_, Ring.unread_eq_ok hrec.written_le hcursor, ?_, ?_⟩
  · intro hunread
    obtain ⟨batch, next, hread, hfull⟩ := hrec.read_of_unread (q := ⟨amount, mode, true⟩) (Nat.ne_of_gt hamount) hcursor hunread
    refine ⟨batch, next, hfull, ?_⟩
    intro target
    rw [readInto, Ring.readInto_eq_ok hread, hfull]
  · intro hshort target
    have hread : h.read ⟨amount, mode, true⟩ cursor = .ok ⟨[], cursor⟩ := by
      rw [read, hrec.read_eq_ok _ hcursor, if_neg (Nat.ne_of_gt hamount), if_pos ⟨rfl, hshort⟩]
    rw [readInto, Ring.readInto_eq_ok hread, List.append_nil, List.length_nil]

/-- The counter stood at the last word, came round, and the history was cleared on the way: of the values inserted since, three
are held. A reader from that time gets a full batch of three, and none of four. -/
theorem exact_reads_all_or_nothing_after_round :
    0 < 4 ∧ 4 ≤ lastWord ∧ lastWord ≤ lastWord ∧ 0 < 3 ∧
      ∃ h, (startingAt 4 lastWord).edits [.insertMany [1, 2, 3], .clear, .insertMany [4, 5, 6]] = .ok h ∧
        h.unread lastWord = .ok 3 ∧
        (∃ batch next, batch.length = 3 ∧
          h.readInto [7] ⟨3, .continuous, true⟩ lastWord = .ok ⟨3, [7] ++ batch, next⟩) ∧
        h.readInto [7] ⟨4, .continuous, true⟩ lastWord = .ok ⟨0, [7], lastWord⟩ := by
  have hpos : 0 < 4 := by decide
  have hfit : 4 ≤ lastWord := by decide
  have hthree : 0 < 3 := by decide
  obtain ⟨h, hedits, hreads⟩ :=
    exact_reads_all_or_nothing hpos hfit (Nat.le_refl lastWord) [.insertMany [1, 2, 3], .clear, .insertMany [4, 5, 6]]
  have hnew : (startingAt 4 lastWord).edits [.insertMany [1, 2, 3], .clear, .insertMany [4, 5, 6]] =
      .ok ⟨⟨#[5, 6, 3, 4], 4, 2, 3, 5⟩⟩ := by cbv
  obtain rfl := Except.ok.inj (hedits.symm.trans hnew)
  have hunread : (⟨⟨#[5, 6, 3, 4], 4, 2, 3, 5⟩⟩ : History Nat).unread lastWord = .ok 3 := by cbv
  obtain ⟨three, hthree', hfull, -⟩ := hreads 3 .continuous lastWord hthree (Nat.le_refl _)
  obtain ⟨three', hfour, -, hnone⟩ := hreads 4 .continuous lastWord hpos (Nat.le_refl _)
  obtain rfl := Except.ok.inj (hthree'.symm.trans hunread)
  obtain rfl := Except.ok.inj (hfour.symm.trans hunread)
  obtain ⟨batch, next, hlength, hinto⟩ := hfull (Nat.le_refl 3)
  exact ⟨hpos, hfit, Nat.le_refl _, hthree, _, hedits, hunread, ⟨batch, next, hlength, hinto [7]⟩, hnone (by decide) [7]⟩

end History

end Lookback
