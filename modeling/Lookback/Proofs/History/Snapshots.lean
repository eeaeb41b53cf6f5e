import Lookback.Proofs.History.Rollover

/-!
# Counting on from a snapshot of the counter

A reader takes the counter as its cursor and asks later how many values are unread. Both are positions on the cycle of all words,
and the counter may have come round in between. From one position forward to the other it is still the number of insertions,
if these are fewer than a full turn (`insertionsSince_added`). So many values are unread, as far as they are still live; how
many are live depends on clears and on the capacity alone.

Where every value inserted since the first of two snapshots is still live, the numbers unread since the one and since the other
differ by what was inserted between the two (`unread_counts_insertions`).
-/

namespace Lookback

/-- Forward from a position to the one reached by so many insertions, whether or not the counter came round on the way. -/
theorem insertionsSince_added {written added : Nat} (hfit : written ≤ lastWord) (hadded : added ≤ lastWord) :
    insertionsSince ((written + added) % (lastWord + 1)) written = added := by
  by_cases hround : written + added ≤ lastWord
  · rw [Nat.mod_eq_of_lt (by omega), insertionsSince_of_le (by omega) hround]
    omega
  · have hback : written + added - (lastWord + 1) + (lastWord + 1) - written = added := by omega
    rw [insertionsSince, Cyclic.mod_of_past (n := written + added) (by omega) (by omega), hback, Nat.mod_eq_of_lt (by omega)]

/-- From a snapshot on, the values inserted since are unread as far as they are live. -/
theorem Ring.Records.unread_append {α : Type} {r r' : Ring α} {start recent recent' : Nat} {past values : List α}
    (h : r.Records start past recent) (h' : r'.Records start (past ++ values) recent') (hfew : values.length ≤ lastWord) :
    r'.unread r.written = .ok (min values.length r'.live) := by
  rw [unread_eq_ok h'.written_le h.written_le, h.written_append h', insertionsSince_added h.written_le hfew]

namespace History

variable {α : Type} {h : History α} {capacity start : Nat} {past recent : List α}

/-- Where nothing is cleared and all values added fit into the slots, all of them are live. -/
theorem le_size_of_kept {h' : History α} {later : List (Edit α)} (hkept : .clear ∉ later)
    (hrec : h'.ring.Records start past (later.foldl Edit.extend recent).length)
    (hroom : (Edit.inserted later).length ≤ h'.capacity) : (Edit.inserted later).length ≤ h'.size := by
  rw [size, hrec.live_eq, Edit.foldl_extend_of_kept hkept, List.length_append]
  exact Nat.le_min.mpr ⟨Nat.le_add_left _ _, hroom⟩

/-- Whatever edits were made of a new history, wherever its counter began: a reader takes the counter as its cursor, and further
edits insert fewer than `2 ^ 64` values. Then as many values are unread as were inserted since, or all that are live if these are
fewer. If nothing was cleared since and all those values fit into the slots, a second snapshot taken on the way counts fewer
values unread than the first one: fewer by the number of insertions between the two. -/
theorem unread_counts_insertions (hpos : 0 < capacity) (hfit : capacity ≤ lastWord) (hstart : start ≤ lastWord)
    (es : List (Edit α)) :
    ∃ h, (startingAt capacity start).edits es = .ok h ∧
      ∀ later : List (Edit α), (Edit.inserted later).length ≤ lastWord →
        ∃ h', h.edits later = .ok h' ∧ h'.unread h.cursor = .ok (min (Edit.inserted later).length h'.size) ∧
          ∀ first second, later = first ++ second → .clear ∉ later → (Edit.inserted later).length ≤ capacity →
            ∃ h₁ x y, h.edits first = .ok h₁ ∧ h₁.edits second = .ok h' ∧
              h'.unread h.cursor = .ok x ∧ h'.unread h₁.cursor = .ok y ∧ x = y + (Edit.inserted first).length := by
  obtain ⟨h, hedits, hcapacity, hrec⟩ := edits_eq_ok hpos hfit hstart es
  refine ⟨h, hedits, ?_⟩
  intro later hfew
  obtain ⟨h', hlater, hcapacity', hrec'⟩ := edits_records hrec later
  have hunread : h'.unread h.cursor = .ok (min (Edit.inserted later).length h'.size) := hrec.unread_append hrec' hfew
  refine ⟨h', hlater, hunread, ?_⟩
  rintro first second rfl hkept hroom
  obtain ⟨h₁, hfirst, -, hrec₁⟩ := edits_records hrec first
  rw [Edit.inserted_append, ← List.append_assoc] at hrec'
  rw [edits_append hfirst] at hlater
  have hlive : (Edit.inserted (first ++ second)).length ≤ h'.size :=
    le_size_of_kept hkept hrec' (by rw [hcapacity', hcapacity]; exact hroom)
  rw [Edit.inserted_append, List.length_append] at hfew hlive hunread
  have hunread₁ : h'.unread h₁.cursor = .ok (min (Edit.inserted second).length h'.size) :=
    hrec₁.unread_append hrec' (by omega)
  exact ⟨h₁, _, _, hfirst, hlater, hunread, hunread₁, by omega⟩

/-- The first snapshot is taken at the last word, and the counter comes round to 2: three values are unread since then, and one since
a second snapshot that came two insertions later. After a clear on the way one value is unread since the first snapshot. -/
theorem unread_counts_insertions_after_round :
    0 < 4 ∧ 4 ≤ lastWord ∧ lastWord - 1 ≤ lastWord ∧
      (Edit.inserted [.insertMany [2, 3], .insert 4]).length ≤ lastWord ∧
      (.clear : Edit Nat) ∉ [.insertMany [2, 3], .insert 4] ∧ (Edit.inserted [.insertMany [2, 3], .insert 4]).length ≤ 4 ∧
      (Edit.inserted [.insertMany [2, 3], .clear, .insert 4]).length ≤ lastWord ∧
      ∃ h h₁ h', (startingAt 4 (lastWord - 1)).edits [.insert 1] = .ok h ∧ h.cursor = lastWord ∧
        h.edits [.insertMany [2, 3]] = .ok h₁ ∧ h₁.edits [.insert 4] = .ok h' ∧ h'.cursor = 2 ∧
        (∃ x y, h'.unread h.cursor = .ok x ∧ h'.unread h₁.cursor = .ok y ∧ x = y + 2) ∧
        h'.unread h.cursor = .ok (min 3 4) ∧
        ∃ h'', h.edits [.insertMany [2, 3], .clear, .insert 4] = .ok h'' ∧ h''.unread h.cursor = .ok (min 3 1) := by
  have hpos : 0 < 4 := by decide
  have hfit : 4 ≤ lastWord := by decide
  have hstart : lastWord - 1 ≤ lastWord := Nat.sub_le _ _
  have hfew : (Edit.inserted [.insertMany [2, 3], .insert 4]).length ≤ lastWord := by decide
  have hkept : (.clear : Edit Nat) ∉ [.insertMany [2, 3], .insert 4] := by simp
  have hroom : (Edit.inserted [.insertMany [2, 3], .insert 4]).length ≤ 4 := by decide
  have hfew' : (Edit.inserted [.insertMany [2, 3], .clear, .insert 4]).length ≤ lastWord := by decide
  obtain ⟨h, hedits, hcounts⟩ := unread_counts_insertions hpos hfit hstart [.insert 1]
  have hnew : (startingAt 4 (lastWord - 1)).edits [.insert 1] = .ok ⟨⟨#[1], 4, 1, 1, lastWord⟩⟩ := by cbv
  obtain rfl := Except.ok.inj (hedits.symm.trans hnew)
  obtain ⟨h', hlater, hunread, hpair⟩ := hcounts [.insertMany [2, 3], .insert 4] hfew
  have hround : (⟨⟨#[1], 4, 1, 1, lastWord⟩⟩ : History Nat).edits [.insertMany [2, 3], .insert 4] =
      .ok ⟨⟨#[1, 2, 3, 4], 4, 0, 4, 2⟩⟩ := by cbv
  obtain rfl := Except.ok.inj (hlater.symm.trans hround)
  obtain ⟨h₁, x, y, hfirst, hsecond, hx, hy, hdiff⟩ := hpair [.insertMany [2, 3]] [.insert 4] rfl hkept hroom
  obtain ⟨h'', hcleared, hunread'', -⟩ := hcounts [.insertMany [2, 3], .clear, .insert 4] hfew'
  have hclear : (⟨⟨#[1], 4, 1, 1, lastWord⟩⟩ : History Nat).edits [.insertMany [2, 3], .clear, .insert 4] =
      .ok ⟨⟨#[1, 2, 3, 4], 4, 0, 1, 2⟩⟩ := by cbv
  obtain rfl := Except.ok.inj (hcleared.symm.trans hclear)
  exact ⟨hpos, hfit, hstart, hfew, hkept, hroom, hfew', _, h₁, _, hedits, rfl, hfirst, hsecond, rfl, ⟨x, y, hx, hy, hdiff⟩,
    hunread, _, hcleared, hunread''⟩

end History

end Lookback
