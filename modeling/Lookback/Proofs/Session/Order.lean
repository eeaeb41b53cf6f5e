import Lookback.Proofs.Session

/-!
# Deliveries come in order

Whatever a reader asks for and whatever cursor it starts with, what it is given goes forward through the past: every batch
is a stretch of the past, no place is delivered twice, and no place comes after a later one. The cursor carries this: once
it lies within the past it only moves on, and right behind a batch it marks the end of that batch.
-/

namespace Lookback

open History

namespace Session

variable {α : Type} {capacity : Nat} {s t : Session α} {events : List (Event α)} {ds : List (Delivery α)}

/-- Every batch is the stretch of the past that ends at the cursor it leaves. -/
theorem Follows.batch_eq (h : Follows capacity s events t ds) {d : Delivery α} (hd : d ∈ ds) :
    d.reading.batch = t.past.extract d.reading.first d.reading.cursor := by
  obtain ⟨u, u₁, -, hread, hjournal, -, _, _, hlater⟩ := h.moment hd
  have hprefix : u.past <+: t.past := by
    rw [← past_eq hjournal]
    exact hlater.past_prefix
  by_cases hnone : d.reading.batch = []
  · simp [Reading.first, hnone]
  · have hlast : d.reading.cursor ≤ u.past.length := by
      rw [hread] at hnone ⊢
      exact (Request.answer_cursor_of_batch (heldAfter_le capacity u) hnone).2
    rw [← Stretch.extract_of_prefix hprefix hlast, hread]
    exact Request.answer_batch (heldAfter_le capacity u)

/-- Behind a batch the cursor marks the end of that batch, within what was inserted by then, and never goes back. -/
theorem Follows.cursor_of_batch (h : Follows capacity s events t ds) {d : Delivery α} (hd : d ∈ ds)
    (hbatch : d.reading.batch ≠ []) :
    d.reading.first + d.reading.batch.length = d.reading.cursor ∧
      d.reading.cursor ≤ (Edit.inserted d.journal).length ∧ d.reading.cursor ≤ t.cursor := by
  obtain ⟨u, u₁, -, hread, hjournal, hcursor, _, _, hlater⟩ := h.moment hd
  have hend : d.reading.first + d.reading.batch.length = d.reading.cursor ∧ d.reading.cursor ≤ u.past.length := by
    rw [hread] at hbatch ⊢
    exact Request.answer_cursor_of_batch (heldAfter_le capacity u) hbatch
  have hmove := (hlater.cursor_le (by rw [hcursor, past_eq hjournal]; exact hend.2)).1
  have hpast : (Edit.inserted d.journal).length = u.past.length := by rw [hread, past]
  rw [hcursor] at hmove
  rw [hpast]
  exact ⟨hend.1, hend.2, hmove⟩

/-- The last value of a batch stands right before the cursor it leaves. -/
theorem Follows.last_eq (h : Follows capacity s events t ds) {d : Delivery α} (hd : d ∈ ds) (hbatch : d.reading.batch ≠ []) :
    d.reading.batch.getLast? = t.past[d.reading.cursor - 1]? := by
  obtain ⟨hend, -, -⟩ := h.cursor_of_batch hd hbatch
  have hlength : 0 < d.reading.batch.length := List.length_pos_iff.mpr hbatch
  have hplace : d.reading.first + (d.reading.batch.length - 1) = d.reading.cursor - 1 := by omega
  calc d.reading.batch.getLast?
      = d.reading.batch[d.reading.batch.length - 1]? := List.getLast?_eq_getElem?
    _ = (t.past.extract d.reading.first d.reading.cursor)[d.reading.batch.length - 1]? :=
        congrArg (·[d.reading.batch.length - 1]?) (h.batch_eq hd)
    _ = t.past[d.reading.cursor - 1]? := by
        rw [Stretch.getElem?_extract (by omega), hplace]

/-- The places of a reading are those from its first one up to its cursor. -/
theorem mem_places {reading : Reading α} {j : Nat} :
    j ∈ reading.places ↔ reading.first ≤ j ∧ j < reading.first + reading.batch.length := by
  rw [Reading.places, List.mem_range'_1]

/-- A reading with a place brings something. -/
theorem batch_ne_nil {reading : Reading α} {j : Nat} (hj : j ∈ reading.places) : reading.batch ≠ [] := by
  intro hnone
  rw [mem_places, hnone, List.length_nil] at hj
  omega

/-- The places delivered increase strictly, over the whole run. -/
theorem Follows.places_increase (h : Follows capacity s events t ds) :
    (ds.flatMap fun d => d.reading.places).Pairwise (· < ·) := by
  induction h with
  | done s => exact List.Pairwise.nil
  | edit _ _ _ ih => exact ih
  | @read s s₁ t q rest ds hjournal hcursor hlater ih =>
    rw [List.flatMap_cons, List.pairwise_append]
    refine ⟨List.pairwise_lt_range', ih, ?_⟩
    intro i hi j hj
    obtain ⟨d, hd, hj⟩ := List.mem_flatMap.mp hj
    -- the first batch has a value, so its cursor is within the past and the later reads start behind it
    have hbatch : (s.answer capacity q).batch ≠ [] := batch_ne_nil hi
    have hi : i ∈ (s.answer capacity q).places := hi
    rw [mem_places] at hi hj
    obtain ⟨hend, hwithin⟩ : (s.answer capacity q).first + (s.answer capacity q).batch.length =
        (s.answer capacity q).cursor ∧ (s.answer capacity q).cursor ≤ s.past.length :=
      Request.answer_cursor_of_batch (heldAfter_le capacity s) hbatch
    obtain ⟨hnext, hfirst⟩ := hlater.cursor_le_first (by rw [hcursor, past_eq hjournal]; exact hwithin) hd
    omega

/-- Whatever edits and reads come in whatever order, fewer than `2 ^ 64` insertions in all, and whatever cursor the reader
starts with: every batch is the stretch of the past that ends at the cursor it leaves; the places delivered over the whole
run increase strictly; between any two moments of the run a cursor that is not ahead of the counter moves on and does not
get ahead of it; and the cursor right after a batch is one more than the place of its last value, and positive ever
after. -/
theorem deliveries_in_order (hpos : 0 < capacity) (hfit : capacity ≤ lastWord) (es : List (Edit α))
    (events events' : List (Event α)) {cursor : Nat} (hcursor : cursor ≤ lastWord)
    (hfew : (Edit.inserted (es ++ Event.edits (events ++ events'))).length ≤ lastWord) :
    ∃ h s t ds ds', (empty capacity).edits es = .ok h ∧ (⟨es, h, cursor⟩ : Session α).run events = .ok (s, ds) ∧
      s.run events' = .ok (t, ds') ∧ t.past = Edit.inserted (es ++ Event.edits (events ++ events')) ∧
      (∀ d ∈ ds ++ ds', d.reading.batch = t.past.extract d.reading.first d.reading.cursor) ∧
      ((ds ++ ds').flatMap fun d => d.reading.places).Pairwise (· < ·) ∧
      (s.cursor ≤ s.history.cursor → s.cursor ≤ t.cursor ∧ t.cursor ≤ t.history.cursor) ∧
      (∀ d ∈ ds, d.reading.batch ≠ [] →
        d.reading.batch.getLast? = t.past[d.reading.cursor - 1]? ∧ 0 < d.reading.cursor ∧
          d.reading.cursor ≤ (Edit.inserted d.journal).length ∧ d.reading.cursor ≤ t.cursor) := by
  rw [Event.edits_append, ← List.append_assoc] at hfew ⊢
  have hfew₁ : (Edit.inserted (es ++ Event.edits events)).length ≤ lastWord := by
    rw [Edit.inserted_append, List.length_append] at hfew
    exact Nat.le_trans (Nat.le_add_right _ _) hfew
  obtain ⟨h, s, ds, hedits, hrun, hs, hfollows⟩ := exists_run hpos hfit es events hcursor hfew₁
  have hfew₂ : (Edit.inserted (s.journal ++ Event.edits events')).length ≤ lastWord := by
    rw [hfollows.journal_eq]
    exact hfew
  obtain ⟨t, ds', hrun', ht, hfollows'⟩ := run_follows hs hfew₂
  have hwhole := hfollows.append hfollows'
  have hpast : t.past = Edit.inserted (es ++ Event.edits events ++ Event.edits events') := by
    rw [past, hfollows'.journal_eq, hfollows.journal_eq]
  have hscount : s.history.cursor = s.past.length := by
    apply cursor_eq_length hs.records
    rw [past, hfollows.journal_eq]
    exact hfew₁
  have htcount : t.history.cursor = t.past.length := by
    apply cursor_eq_length ht.records
    rw [hpast]
    exact hfew
  refine ⟨h, s, t, ds, ds', hedits, hrun, hrun', hpast, ?_, hwhole.places_increase, ?_, ?_⟩
  · intro d hd
    exact hwhole.batch_eq hd
  · rw [hscount, htcount]
    exact hfollows'.cursor_le
  · intro d hd hbatch
    have hd' : d ∈ ds ++ ds' := List.mem_append_left _ hd
    obtain ⟨hend, hwithin, hmove⟩ := hwhole.cursor_of_batch hd' hbatch
    have hlength : 0 < d.reading.batch.length := List.length_pos_iff.mpr hbatch
    exact ⟨hwhole.last_eq hd' hbatch, by omega, hwithin, hmove⟩

/-- A reader that starts ahead of the counter, is overrun, and asks for nothing after a clear. -/
theorem deliveries_in_order_for_stray_cursor :
    0 < 3 ∧ 3 ≤ lastWord ∧ 9 ≤ lastWord ∧
      (Edit.inserted ([.insertMany [1, 2]] ++ Event.edits ([.read ⟨1, .windowed, false⟩] ++
        [.edit (.insertMany [3, 4, 5, 6]), .read ⟨2, .continuous, true⟩, .edit .clear, .read ⟨0, .windowed, true⟩]))).length ≤
        lastWord ∧
      ∃ h s t ds ds', (empty 3).edits [.insertMany [1, 2]] = .ok h ∧
        (⟨[.insertMany [1, 2]], h, 9⟩ : Session Nat).run [.read ⟨1, .windowed, false⟩] = .ok (s, ds) ∧
        s.run [.edit (.insertMany [3, 4, 5, 6]), .read ⟨2, .continuous, true⟩, .edit .clear, .read ⟨0, .windowed, true⟩] =
          .ok (t, ds') ∧
        (ds ++ ds').map Delivery.reading = [⟨[2], 2⟩, ⟨[4, 5], 5⟩, ⟨[], 6⟩] ∧ t.cursor = 6 ∧
        (ds ++ ds').flatMap (fun d => d.reading.places) = [1, 3, 4] ∧ [1, 3, 4].Pairwise (· < ·) := by
  have hpos : 0 < 3 := by decide
  have hfit : 3 ≤ lastWord := by decide
  have hcursor : 9 ≤ lastWord := by decide
  have hfew : (Edit.inserted ([.insertMany [1, 2]] ++ Event.edits ([.read ⟨1, .windowed, false⟩] ++
      [.edit (.insertMany [3, 4, 5, 6]), .read ⟨2, .continuous, true⟩, .edit .clear, .read ⟨0, .windowed, true⟩]))).length ≤
      lastWord := by decide
  obtain ⟨h, s, t, ds, ds', hedits, hrun, hrun', -, -, hincrease, -⟩ :=
    deliveries_in_order hpos hfit [.insertMany [1, 2]] _ _ hcursor hfew
  have hnew : (empty 3).edits [.insertMany [1, 2]] = .ok ⟨⟨#[1, 2], 3, 2, 2, 2⟩⟩ := by cbv
  obtain rfl := Except.ok.inj (hedits.symm.trans hnew)
  have hfirst : (⟨[.insertMany [1, 2]], ⟨⟨#[1, 2], 3, 2, 2, 2⟩⟩, 9⟩ : Session Nat).run [.read ⟨1, .windowed, false⟩] =
      .ok (⟨[.insertMany [1, 2]], ⟨⟨#[1, 2], 3, 2, 2, 2⟩⟩, 2⟩, [⟨[.insertMany [1, 2]], ⟨1, .windowed, false⟩, 9, ⟨[2], 2⟩⟩]) := by
    cbv
  obtain ⟨rfl, hds⟩ := Prod.mk.inj (Except.ok.inj (hrun.symm.trans hfirst))
  have hlater : (⟨[.insertMany [1, 2]], ⟨⟨#[1, 2], 3, 2, 2, 2⟩⟩, 2⟩ : Session Nat).run [.edit (.insertMany [3, 4, 5, 6]),
      .read ⟨2, .continuous, true⟩, .edit .clear, .read ⟨0, .windowed, true⟩] =
        .ok (⟨[.insertMany [1, 2], .insertMany [3, 4, 5, 6], .clear], ⟨⟨#[4, 5, 6], 3, 0, 0, 6⟩⟩, 6⟩,
          [⟨[.insertMany [1, 2], .insertMany [3, 4, 5, 6]], ⟨2, .continuous, true⟩, 2, ⟨[4, 5], 5⟩⟩,
            ⟨[.insertMany [1, 2], .insertMany [3, 4, 5, 6], .clear], ⟨0, .windowed, true⟩, 5, ⟨[], 6⟩⟩]) := by
    cbv
  obtain ⟨rfl, hds'⟩ := Prod.mk.inj (Except.ok.inj (hrun'.symm.trans hlater))
  have hreadings : (ds ++ ds').map Delivery.reading = [⟨[2], 2⟩, ⟨[4, 5], 5⟩, ⟨[], 6⟩] := by
    rw [hds, hds']
    rfl
  have hplaces : (ds ++ ds').flatMap (fun d => d.reading.places) = [1, 3, 4] := by
    rw [← List.flatMap_map, hreadings]
    rfl
  rw [hplaces] at hincrease
  exact ⟨hpos, hfit, hcursor, hfew, _, _, _, _, _, hedits, hrun, hrun', hreadings, rfl, hplaces, hincrease⟩

end Session

end Lookback
