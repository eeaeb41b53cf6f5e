import Lookback.Proofs.Session.Order

/-!
# What continuous reads leave out

A reader that reads continuously is given the values from its cursor on, in order. What it misses is lost and not skipped:
each value that the cursor passes was passed by one read (`exists_passing`), and is missing from the batches exactly if it
was not held any more at that read (`Follows.mem_places_iff`). A reader that never falls further behind than the history
reaches misses nothing (`Follows.batches_eq`).
-/

namespace Lookback

open History

/-- The read of a delivery took the cursor past place `j`. -/
def Delivery.Passes {α : Type} (d : Delivery α) (j : Nat) : Prop := d.cursor ≤ j ∧ j < d.reading.cursor

namespace Session

variable {α : Type} {capacity : Nat} {s t : Session α} {events : List (Event α)} {ds : List (Delivery α)}

/-! ## One delivery -/

/-- A delivery brings the values at its places. -/
theorem Follows.batch_map_some (h : Follows capacity s events t ds) {d : Delivery α} (hd : d ∈ ds) :
    d.reading.batch.map some = d.reading.places.map (t.past[·]?) := by
  by_cases hnone : d.reading.batch = []
  · simp [Reading.places, hnone]
  · obtain ⟨hend, hwithin, -⟩ := h.cursor_of_batch hd hnone
    obtain ⟨u, u₁, -, hread, hjournal, -, _, _, hlater⟩ := h.moment hd
    have hpast : (Edit.inserted d.journal).length = u₁.past.length := by rw [hread, past_eq hjournal, past]
    have hlength : d.reading.batch.length = d.reading.cursor - d.reading.first := by omega
    have hle := hlater.past_prefix.length_le
    rw [h.batch_eq hd, Stretch.map_some_extract (by omega), Reading.places, hlength]

/-- A place that a continuous read passes is among those of its batch exactly if its value is still held. -/
theorem Follows.passes_iff (h : Follows capacity s events t ds)
    (hcontinuous : ∀ q, Event.read q ∈ events → q.mode = .continuous ∧ 0 < q.amount) (hpos : 0 < s.cursor)
    (hs : s.cursor ≤ s.past.length) {d : Delivery α} (hd : d ∈ ds) {j : Nat} (hj : d.Passes j) :
    j ∈ d.reading.places ↔ Held capacity d.journal j := by
  obtain ⟨hmode, hamount⟩ := hcontinuous d.request (h.mem_events hd)
  obtain ⟨u, u₁, ⟨_, _, hbefore⟩, hread, -⟩ := h.moment hd
  obtain ⟨hmove, hwithin⟩ := hbefore.cursor_le hs
  have hend := (answer_cursor capacity hwithin d.request).2.2
  rw [hread] at hj
  obtain ⟨hlow, hhigh⟩ : u.cursor ≤ j ∧ j < (u.answer capacity d.request).cursor := hj
  have hkept : (u.answer capacity d.request).first ≤ j ↔ u.past.length ≤ j + heldAfter capacity u.journal :=
    Request.answer_continuous hmode (by omega) (heldAfter_le capacity u) (by omega) hwithin hlow hhigh
  have hinside : j < u.past.length := Nat.lt_of_lt_of_le hhigh hend
  have hplaces : j ∈ (u.answer capacity d.request).places ↔ (u.answer capacity d.request).first ≤ j := by
    rw [mem_places]
    refine ⟨And.left, fun hfirst => ⟨hfirst, ?_⟩⟩
    unfold Reading.first
    omega
  rw [hread]
  exact (hplaces.trans hkept).trans ⟨fun hheld => ⟨hinside, hheld⟩, And.right⟩

/-! ## All deliveries of a run -/

/-- Each place that the cursor passes in a run is passed by one of its reads, and by no other. -/
theorem Follows.exists_passing (h : Follows capacity s events t ds) (hs : s.cursor ≤ s.past.length) {j : Nat}
    (hlow : s.cursor ≤ j) (hhigh : j < t.cursor) :
    ∃ before d after, ds = before ++ d :: after ∧ d.Passes j ∧ ∀ d' ∈ before ++ after, ¬d'.Passes j := by
  induction h with
  | done s => omega
  | edit hjournal hcursor _ ih => exact ih (cursor_le_of_edit hjournal hcursor hs) (by omega) hhigh
  | @read s s₁ t q rest ds hjournal hcursor hlater ih =>
    have hs₁ := cursor_le_of_read hjournal hcursor hs
    by_cases hfirst : j < s₁.cursor
    · refine ⟨[], _, ds, rfl, ⟨hlow, by rw [← hcursor]; exact hfirst⟩, ?_⟩
      intro d' hd' hpasses
      have hle := (hlater.cursor_le_first hs₁ hd').1
      exact absurd hpasses.1 (by omega)
    · obtain ⟨before, d, after, rfl, hpasses, hothers⟩ := ih hs₁ (by omega) hhigh
      refine ⟨_ :: before, d, after, rfl, hpasses, ?_⟩
      intro d' hd' hpasses'
      rcases List.mem_cons.mp hd' with rfl | hd'
      · have hpassed : j < (s.answer capacity q).cursor := hpasses'.2
        omega
      · exact hothers d' hd' hpasses'

/-- What is delivered lies between the first cursor of the run and the last one. -/
theorem Follows.place_passed (h : Follows capacity s events t ds) (hs : s.cursor ≤ s.past.length) {j : Nat}
    (hj : j ∈ ds.flatMap fun d => d.reading.places) : s.cursor ≤ j ∧ j < t.cursor := by
  obtain ⟨d, hd, hj⟩ := List.mem_flatMap.mp hj
  obtain ⟨hcursor, hfirst⟩ := h.cursor_le_first hs hd
  obtain ⟨hlow, hhigh⟩ := mem_places.mp hj
  obtain ⟨hend, -, hmove⟩ := h.cursor_of_batch hd (batch_ne_nil hj)
  omega

/-- Of the places that the cursor passes, those are delivered whose value is still held at the read that passes them. -/
theorem Follows.mem_places_iff (h : Follows capacity s events t ds)
    (hcontinuous : ∀ q, Event.read q ∈ events → q.mode = .continuous ∧ 0 < q.amount) (hpos : 0 < s.cursor)
    (hs : s.cursor ≤ s.past.length) {j : Nat} {before after : List (Delivery α)} {d : Delivery α}
    (hds : ds = before ++ d :: after) (hpasses : d.Passes j) (hothers : ∀ d' ∈ before ++ after, ¬d'.Passes j) :
    j ∈ ds.flatMap (fun d => d.reading.places) ↔ Held capacity d.journal j := by
  have hd : d ∈ ds := by simp [hds]
  rw [← h.passes_iff hcontinuous hpos hs hd hpasses, List.mem_flatMap]
  constructor
  · rintro ⟨d', hd', hj⟩
    obtain ⟨hlow, hhigh⟩ := mem_places.mp hj
    have hpasses' : d'.Passes j := by
      have hle := (h.cursor_le_first hs hd').2
      have hend := (h.cursor_of_batch hd' (batch_ne_nil hj)).1
      exact ⟨by omega, by omega⟩
    rw [hds, List.mem_append, List.mem_cons] at hd'
    rcases hd' with hd' | rfl | hd'
    · exact absurd hpasses' (hothers d' (List.mem_append_left _ hd'))
    · exact hj
    · exact absurd hpasses' (hothers d' (List.mem_append_right _ hd'))
  · intro hj
    exact ⟨d, hd, hj⟩

/-- The batches of a run, put end to end, are values from the cursor on, with nothing out of order. -/
theorem Follows.batches_sublist (h : Follows capacity s events t ds) (hs : s.cursor ≤ s.past.length) :
    (ds.flatMap fun d => d.reading.batch).Sublist (t.past.drop s.cursor) := by
  induction h with
  | done s => exact List.nil_sublist _
  | edit hjournal hcursor _ ih =>
    rw [← hcursor]
    exact ih (cursor_le_of_edit hjournal hcursor hs)
  | @read s s₁ t q rest ds hjournal hcursor hlater ih =>
    obtain ⟨hfirst, hlast, -⟩ := answer_cursor capacity hs q
    have hbatch := (Follows.read hjournal hcursor hlater).batch_eq List.mem_cons_self
    have hrest := ih (cursor_le_of_read hjournal hcursor hs)
    rw [hcursor] at hrest
    have hfrom := (List.Sublist.refl (t.past.extract (s.answer capacity q).first (s.answer capacity q).cursor)).append hrest
    rw [Stretch.extract_append_drop hlast] at hfrom
    rw [List.flatMap_cons, hbatch]
    exact hfrom.trans (List.drop_sublist_drop_left t.past hfirst)

/-- A run of continuous reads in which the reader never is further behind than the values held brings all values that the
cursor passes. -/
theorem Follows.batches_eq (h : Follows capacity s events t ds)
    (hcontinuous : ∀ q, Event.read q ∈ events → q.mode = .continuous ∧ 0 < q.amount) (hpos : 0 < s.cursor)
    (hs : s.cursor ≤ s.past.length)
    (hbehind : ∀ d ∈ ds, (Edit.inserted d.journal).length - d.cursor ≤ heldAfter capacity d.journal) :
    (ds.flatMap fun d => d.reading.batch) = t.past.extract s.cursor t.cursor := by
  induction h with
  | done s => simp
  | edit hjournal hcursor _ ih =>
    rw [← hcursor]
    exact ih (fun q hq => hcontinuous q (List.mem_cons_of_mem _ hq)) (by omega) (cursor_le_of_edit hjournal hcursor hs) hbehind
  | @read s s₁ t q rest ds hjournal hcursor hlater ih =>
    obtain ⟨hmode, hamount⟩ := hcontinuous q List.mem_cons_self
    obtain ⟨hfirst, hlast, -⟩ := answer_cursor capacity hs q
    have hall : (s.answer capacity q).first = s.cursor :=
      Request.answer_first_of_held hmode (by omega) (heldAfter_le capacity s) hpos hs (hbehind _ List.mem_cons_self)
    have hs₁ := cursor_le_of_read hjournal hcursor hs
    have hmove := (hlater.cursor_le hs₁).1
    have hrest := ih (fun q hq => hcontinuous q (List.mem_cons_of_mem _ hq)) (by omega) hs₁
      (fun d hd => hbehind d (List.mem_cons_of_mem _ hd))
    have hbatch := (Follows.read hjournal hcursor hlater).batch_eq List.mem_cons_self
    simp only [hall] at hbatch
    rw [List.flatMap_cons, hbatch, hrest, hcursor]
    exact Stretch.extract_append_extract (by omega) (by omega)

/-- Whatever edits and continuous reads come in whatever order, fewer than `2 ^ 64` insertions in all, for a reader that
starts with a cursor the history gave out: the batches put end to end are a subsequence of the values inserted from the
cursor on, each at most once and in order; and a place that the cursor passes is missing exactly if its value was no longer
held, overwritten or cleared, at the one read that took the cursor past it. If at every read no more values were inserted
since the cursor than are held, nothing is missing. -/
theorem continuous_reads_miss_only_lost (hpos : 0 < capacity) (hfit : capacity ≤ lastWord) (es : List (Edit α))
    (events : List (Event α)) (hcontinuous : ∀ q, Event.read q ∈ events → q.mode = .continuous ∧ 0 < q.amount)
    {cursor : Nat} (hissued : 0 < cursor ∧ cursor ≤ (Edit.inserted es).length)
    (hfew : (Edit.inserted (es ++ Event.edits events)).length ≤ lastWord) :
    ∃ h t ds, (empty capacity).edits es = .ok h ∧ (⟨es, h, cursor⟩ : Session α).run events = .ok (t, ds) ∧
      t.past = Edit.inserted (es ++ Event.edits events) ∧
      (ds.flatMap fun d => d.reading.batch).Sublist (t.past.drop cursor) ∧
      (ds.flatMap fun d => d.reading.batch).map some = (ds.flatMap fun d => d.reading.places).map (t.past[·]?) ∧
      (ds.flatMap fun d => d.reading.places).Pairwise (· < ·) ∧
      (∀ j ∈ ds.flatMap (fun d => d.reading.places), cursor ≤ j ∧ j < t.cursor) ∧
      (∀ j, cursor ≤ j → j < t.cursor →
        ∃ before d after, ds = before ++ d :: after ∧ d.Passes j ∧ (∀ d' ∈ before ++ after, ¬d'.Passes j) ∧
          (j ∉ ds.flatMap (fun d => d.reading.places) ↔ ¬Held capacity d.journal j)) ∧
      ((∀ d ∈ ds, (Edit.inserted d.journal).length - d.cursor ≤ heldAfter capacity d.journal) →
        (ds.flatMap fun d => d.reading.batch) = t.past.extract cursor t.cursor) := by
  obtain ⟨hcursor, hle⟩ := hissued
  have hword : cursor ≤ lastWord := by
    rw [Edit.inserted_append, List.length_append] at hfew
    omega
  obtain ⟨h, t, ds, hedits, hrun, ht, hfollows⟩ := exists_run hpos hfit es events hword hfew
  refine ⟨h, t, ds, hedits, hrun, ?_, hfollows.batches_sublist hle, ?_, hfollows.places_increase, ?_, ?_, ?_⟩
  · rw [past, hfollows.journal_eq]
  · rw [List.map_flatMap, List.map_flatMap, List.flatMap_def, List.flatMap_def]
    congr 1
    apply List.map_congr_left
    intro d hd
    exact hfollows.batch_map_some hd
  · intro j hj
    exact hfollows.place_passed hle hj
  · intro j hlow hhigh
    obtain ⟨before, d, after, hds, hpasses, hothers⟩ := hfollows.exists_passing hle hlow hhigh
    exact ⟨before, d, after, hds, hpasses, hothers,
      not_congr (hfollows.mem_places_iff hcontinuous hcursor hle hds hpasses hothers)⟩
  · exact hfollows.batches_eq hcontinuous hcursor hle

/-- Of five values from the cursor on, a reader in a ring of two slots gets three: one was overwritten, one cleared. -/
theorem continuous_reads_miss_two_lost :
    0 < 2 ∧ 2 ≤ lastWord ∧
      (∀ q, (Event.read q : Event Nat) ∈ [.read ⟨1, .continuous, false⟩, .edit (.insertMany [3, 4, 5]),
        .read ⟨1, .continuous, true⟩, .edit .clear, .edit (.insert 6), .read ⟨5, .continuous, false⟩] →
        q.mode = .continuous ∧ 0 < q.amount) ∧
      (0 < 1 ∧ 1 ≤ (Edit.inserted [.insertMany [1, 2]]).length) ∧
      (Edit.inserted ([.insertMany [1, 2]] ++ Event.edits [.read ⟨1, .continuous, false⟩, .edit (.insertMany [3, 4, 5]),
        .read ⟨1, .continuous, true⟩, .edit .clear, .edit (.insert 6), .read ⟨5, .continuous, false⟩])).length ≤ lastWord ∧
      ∃ h t ds, (empty 2).edits [.insertMany [1, 2]] = .ok h ∧
        (⟨[.insertMany [1, 2]], h, 1⟩ : Session Nat).run [.read ⟨1, .continuous, false⟩, .edit (.insertMany [3, 4, 5]),
          .read ⟨1, .continuous, true⟩, .edit .clear, .edit (.insert 6), .read ⟨5, .continuous, false⟩] = .ok (t, ds) ∧
        ds.map Delivery.reading = [⟨[2], 2⟩, ⟨[4], 4⟩, ⟨[6], 6⟩] ∧
        (ds.flatMap fun d => d.reading.batch).Sublist [2, 3, 4, 5, 6] ∧
        (∃ d ∈ ds, d.Passes 2 ∧ ¬Held 2 d.journal 2) ∧ (∃ d ∈ ds, d.Passes 4 ∧ ¬Held 2 d.journal 4) := by
  have hpos : 0 < 2 := by decide
  have hfit : 2 ≤ lastWord := by decide
  have hcontinuous : ∀ q, (Event.read q : Event Nat) ∈ [.read ⟨1, .continuous, false⟩, .edit (.insertMany [3, 4, 5]),
      .read ⟨1, .continuous, true⟩, .edit .clear, .edit (.insert 6), .read ⟨5, .continuous, false⟩] →
      q.mode = .continuous ∧ 0 < q.amount := by
    intro q hq
    simp only [List.mem_cons, Event.read.injEq, reduceCtorEq, false_or, List.not_mem_nil, or_false] at hq
    rcases hq with rfl | rfl | rfl <;> exact ⟨rfl, by decide⟩
  have hissued : 0 < 1 ∧ 1 ≤ (Edit.inserted [.insertMany [1, 2]]).length := by decide
  have hfew : (Edit.inserted ([.insertMany [1, 2]] ++ Event.edits [.read ⟨1, .continuous, false⟩,
      .edit (.insertMany [3, 4, 5]), .read ⟨1, .continuous, true⟩, .edit .clear, .edit (.insert 6),
      .read ⟨5, .continuous, false⟩])).length ≤ lastWord := by decide
  obtain ⟨h, t, ds, hedits, hrun, hpast, hsublist, -, -, -, hmissing, -⟩ :=
    continuous_reads_miss_only_lost hpos hfit [.insertMany [1, 2]] _ hcontinuous hissued hfew
  have hnew : (empty 2).edits [.insertMany [1, 2]] = .ok ⟨⟨#[1, 2], 2, 0, 2, 2⟩⟩ := by cbv
  obtain rfl := Except.ok.inj (hedits.symm.trans hnew)
  have hevents : (⟨[.insertMany [1, 2]], ⟨⟨#[1, 2], 2, 0, 2, 2⟩⟩, 1⟩ : Session Nat).run [.read ⟨1, .continuous, false⟩,
      .edit (.insertMany [3, 4, 5]), .read ⟨1, .continuous, true⟩, .edit .clear, .edit (.insert 6),
      .read ⟨5, .continuous, false⟩] =
        .ok (⟨[.insertMany [1, 2], .insertMany [3, 4, 5], .clear, .insert 6], ⟨⟨#[5, 6], 2, 0, 1, 6⟩⟩, 6⟩,
          [⟨[.insertMany [1, 2]], ⟨1, .continuous, false⟩, 1, ⟨[2], 2⟩⟩,
            ⟨[.insertMany [1, 2], .insertMany [3, 4, 5]], ⟨1, .continuous, true⟩, 2, ⟨[4], 4⟩⟩,
            ⟨[.insertMany [1, 2], .insertMany [3, 4, 5], .clear, .insert 6], ⟨5, .continuous, false⟩, 4, ⟨[6], 6⟩⟩]) := by
    cbv
  obtain ⟨rfl, hds⟩ := Prod.mk.inj (Except.ok.inj (hrun.symm.trans hevents))
  have hreadings : ds.map Delivery.reading = [⟨[2], 2⟩, ⟨[4], 4⟩, ⟨[6], 6⟩] := by
    rw [hds]
    rfl
  have hplaces : ds.flatMap (fun d => d.reading.places) = [1, 3, 5] := by
    rw [← List.flatMap_map, hreadings]
    rfl
  have hlost : ∀ j, 1 ≤ j → j < 6 → j ∉ [1, 3, 5] → ∃ d ∈ ds, d.Passes j ∧ ¬Held 2 d.journal j := by
    intro j hlow hhigh hj
    obtain ⟨before, d, after, hds, hpasses, -, hiff⟩ := hmissing j hlow hhigh
    rw [hplaces] at hiff
    exact ⟨d, by simp [hds], hpasses, hiff.mp hj⟩
  rw [hpast] at hsublist
  exact ⟨hpos, hfit, hcontinuous, hissued, hfew, _, _, _, hedits, hrun, hreadings, hsublist,
    hlost 2 (by decide) (by decide) (by decide), hlost 4 (by decide) (by decide) (by decide)⟩

end Session

end Lookback
