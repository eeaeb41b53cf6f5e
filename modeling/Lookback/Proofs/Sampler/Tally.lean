import Lookback.Sampler.Report

/-!
# Reports in exact integers

A report counts in 64-bit words and stops at a counter that would overflow. `Report.tally` counts the same in integers without a
bound: what one number adds to each counter depends on the number before it alone. Counters only grow, so a counter overflows on
the way exactly if the final count does not fit its word: accounting for numbers or for a batch succeeds exactly where the exact
counts fit, and then brings just these (`record_eq_ok_iff`), for numbers in any order.

How numbers are split into batches shows only in the number of batches (`foldl_tallyBatch`).
-/

namespace Lookback

namespace Report

/-! ## What a number adds -/

/-- What a number adds to the duplicates, where `last` is the number before it. -/
def repeated (last : Option Nat) (n : Nat) : Nat := last.elim 0 fun last => if n ≤ last then 1 else 0

/-- What a number adds to the gaps. -/
def jumped (last : Option Nat) (n : Nat) : Nat := last.elim 0 fun last => if last + 1 < n then 1 else 0

/-- What a number adds to the numbers skipped. -/
def passed (last : Option Nat) (n : Nat) : Nat := last.elim 0 fun last => n - last - 1

/-- The report with one more number. -/
def tally (r : Report) (n : Nat) : Report :=
  { r with
    gaps := r.gaps + jumped r.last n
    skipped := r.skipped + passed r.last n
    duplicates := r.duplicates + repeated r.last n
    first := some (r.first.getD n)
    last := some n }

/-- The report with one more batch; an empty one leaves no trace. -/
def tallyBatch (r : Report) (batch : List Nat) : Report :=
  if batch.isEmpty then r
  else { batch.foldl tally r with received := r.received + batch.length, batches := r.batches + 1 }

/-- All counters are words. -/
structure Fits (r : Report) : Prop where
  received_le : r.received ≤ lastWord
  batches_le : r.batches ≤ lastWord
  gaps_le : r.gaps ≤ lastWord
  skipped_le : r.skipped ≤ lastWord
  duplicates_le : r.duplicates ≤ lastWord

/-- No counter of the one report is above that of the other. -/
structure Within (r r' : Report) : Prop where
  received_le : r.received ≤ r'.received
  batches_le : r.batches ≤ r'.batches
  gaps_le : r.gaps ≤ r'.gaps
  skipped_le : r.skipped ≤ r'.skipped
  duplicates_le : r.duplicates ≤ r'.duplicates

variable {r r' r'' : Report} {numbers batch : List Nat} {n : Nat}

theorem Within.refl (r : Report) : r.Within r :=
  ⟨Nat.le_refl _, Nat.le_refl _, Nat.le_refl _, Nat.le_refl _, Nat.le_refl _⟩

theorem Within.trans (h : r.Within r') (h' : r'.Within r'') : r.Within r'' where
  received_le := Nat.le_trans h.received_le h'.received_le
  batches_le := Nat.le_trans h.batches_le h'.batches_le
  gaps_le := Nat.le_trans h.gaps_le h'.gaps_le
  skipped_le := Nat.le_trans h.skipped_le h'.skipped_le
  duplicates_le := Nat.le_trans h.duplicates_le h'.duplicates_le

/-- What fits later fitted before. -/
theorem Fits.of_within (h : r.Within r') (hfits : r'.Fits) : r.Fits where
  received_le := Nat.le_trans h.received_le hfits.received_le
  batches_le := Nat.le_trans h.batches_le hfits.batches_le
  gaps_le := Nat.le_trans h.gaps_le hfits.gaps_le
  skipped_le := Nat.le_trans h.skipped_le hfits.skipped_le
  duplicates_le := Nat.le_trans h.duplicates_le hfits.duplicates_le

theorem empty_fits (name : String) : (empty name).Fits :=
  ⟨Nat.zero_le _, Nat.zero_le _, Nat.zero_le _, Nat.zero_le _, Nat.zero_le _⟩

theorem within_tally (r : Report) (n : Nat) : r.Within (r.tally n) :=
  ⟨Nat.le_refl _, Nat.le_refl _, Nat.le_add_right _ _, Nat.le_add_right _ _, Nat.le_add_right _ _⟩

theorem within_foldl_tally (r : Report) (numbers : List Nat) : r.Within (numbers.foldl tally r) := by
  induction numbers generalizing r with
  | nil => exact .refl r
  | cons n rest ih => exact (within_tally r n).trans (ih (r.tally n))

/-- Numbers change no name, and do not count as samples or batches by themselves. -/
theorem foldl_tally_kept (r : Report) (numbers : List Nat) :
    (numbers.foldl tally r).name = r.name ∧ (numbers.foldl tally r).received = r.received ∧
      (numbers.foldl tally r).batches = r.batches := by
  induction numbers generalizing r with
  | nil => exact ⟨rfl, rfl, rfl⟩
  | cons n rest ih => exact ih (r.tally n)

theorem tallyBatch_name (r : Report) (batch : List Nat) : (r.tallyBatch batch).name = r.name := by
  cases batch with
  | nil => rfl
  | cons n rest => exact (foldl_tally_kept r (n :: rest)).1

theorem foldl_tally_within_tallyBatch (r : Report) (batch : List Nat) :
    (batch.foldl tally r).Within (r.tallyBatch batch) := by
  obtain ⟨-, hreceived, hbatches⟩ := foldl_tally_kept r batch
  cases batch with
  | nil => exact .refl r
  | cons n rest =>
    refine ⟨?_, ?_, Nat.le_refl _, Nat.le_refl _, Nat.le_refl _⟩
    · rw [hreceived]
      exact Nat.le_add_right _ _
    · rw [hbatches]
      exact Nat.le_add_right _ _

theorem within_tallyBatch (r : Report) (batch : List Nat) : r.Within (r.tallyBatch batch) :=
  (within_foldl_tally r batch).trans (foldl_tally_within_tallyBatch r batch)

theorem within_foldl_tallyBatch (r : Report) (batches : List (List Nat)) : r.Within (batches.foldl tallyBatch r) := by
  induction batches generalizing r with
  | nil => exact .refl r
  | cons batch rest ih => exact (within_tallyBatch r batch).trans (ih (r.tallyBatch batch))

/-! ## Words against integers -/

/-- Where the exact counts fit, a number is accounted for as it should be. -/
theorem note_eq_ok (hword : n ≤ lastWord) (hgaps : (r.tally n).gaps ≤ lastWord) (hskipped : (r.tally n).skipped ≤ lastWord)
    (hduplicates : (r.tally n).duplicates ≤ lastWord) : r.note n = .ok (r.tally n) := by
  obtain ⟨name, received, batches, gaps, skipped, duplicates, first, last⟩ := r
  cases last with
  | none => rfl
  | some last =>
    simp only [tally, jumped, passed, repeated, Option.elim_some] at hgaps hskipped hduplicates ⊢
    by_cases hback : n ≤ last
    · have hnone : n - last - 1 = 0 := by omega
      rw [if_pos hback] at hduplicates
      rw [if_pos hback, if_neg (by omega), hnone]
      simp only [note, compare, if_pos hback, addDuplicate, Width.add_eq_ok hduplicates, Interrupted.guard_ok, ok_bind,
        Nat.add_zero]
    · have hlater : last < n := Nat.lt_of_not_le hback
      have hfollowing : Width.w64.add last 1 = .ok (last + 1) := Width.add_eq_ok (Nat.le_trans hlater hword)
      rw [if_neg hback]
      by_cases hjump : last + 1 < n
      · rw [if_pos hjump] at hgaps ⊢
        simp only [note, compare, if_neg hback, hfollowing, if_pos hjump, addGap, Width.add_eq_ok hgaps,
          subtract_eq_ok (Nat.le_of_lt hlater), subtract_eq_ok (show 1 ≤ n - last by omega), Width.add_eq_ok hskipped,
          Interrupted.guard_ok, ok_bind, Nat.add_zero]
      · have hnone : n - last - 1 = 0 := by omega
        rw [if_neg hjump, hnone]
        simp only [note, compare, if_neg hback, hfollowing, if_neg hjump, Interrupted.guard_ok, ok_bind, Nat.add_zero]

/-- Where they do not fit, accounting for the number stops at a sum that is too large. -/
theorem note_eq_error (hword : n ≤ lastWord) (hr : r.Fits) (hover : ¬(r.tally n).Fits) :
    ∃ e, r.note n = .error e ∧ e.failure = .overflow .add := by
  obtain ⟨name, received, batches, gaps, skipped, duplicates, first, last⟩ := r
  obtain ⟨hreceived, hbatches, hgaps, hskipped, hduplicates⟩ := hr
  cases last with
  | none => exact absurd ⟨hreceived, hbatches, hgaps, hskipped, hduplicates⟩ hover
  | some last =>
    by_cases hback : n ≤ last
    · have hnone : n - last - 1 = 0 := by omega
      by_cases hroom : duplicates + 1 ≤ lastWord
      · refine absurd ⟨hreceived, hbatches, ?_, ?_, ?_⟩ hover
        · simpa [tally, jumped, show ¬last + 1 < n by omega] using hgaps
        · simpa only [tally, passed, Option.elim_some, hnone, Nat.add_zero] using hskipped
        · simpa [tally, repeated, hback] using hroom
      · have hsum : Width.w64.add duplicates 1 = .error (.overflow .add) := Width.add_eq_error (Nat.lt_of_not_le hroom)
        simp only [note, compare, if_pos hback, addDuplicate, hsum, Interrupted.guard_error, error_bind]
        exact ⟨_, rfl, rfl⟩
    · have hlater : last < n := Nat.lt_of_not_le hback
      have hfollowing : Width.w64.add last 1 = .ok (last + 1) := Width.add_eq_ok (Nat.le_trans hlater hword)
      by_cases hjump : last + 1 < n
      · by_cases hroom : gaps + 1 ≤ lastWord
        · by_cases hspan : skipped + (n - last - 1) ≤ lastWord
          · refine absurd ⟨hreceived, hbatches, ?_, hspan, ?_⟩ hover
            · simpa [tally, jumped, hjump] using hroom
            · simpa [tally, repeated, hback] using hduplicates
          · have hsum : Width.w64.add skipped (n - last - 1) = .error (.overflow .add) :=
              Width.add_eq_error (Nat.lt_of_not_le hspan)
            simp only [note, compare, if_neg hback, hfollowing, if_pos hjump, addGap, Width.add_eq_ok hroom,
              subtract_eq_ok (Nat.le_of_lt hlater), subtract_eq_ok (show 1 ≤ n - last by omega), hsum,
              Interrupted.guard_ok, Interrupted.guard_error, ok_bind, error_bind]
            exact ⟨_, rfl, rfl⟩
        · have hsum : Width.w64.add gaps 1 = .error (.overflow .add) := Width.add_eq_error (Nat.lt_of_not_le hroom)
          simp only [note, compare, if_neg hback, hfollowing, if_pos hjump, addGap, hsum, Interrupted.guard_ok,
            Interrupted.guard_error, ok_bind, error_bind]
          exact ⟨_, rfl, rfl⟩
      · have hnone : n - last - 1 = 0 := by omega
        refine absurd ⟨hreceived, hbatches, ?_, ?_, ?_⟩ hover
        · simpa [tally, jumped, hjump] using hgaps
        · simpa only [tally, passed, Option.elim_some, hnone, Nat.add_zero] using hskipped
        · simpa [tally, repeated, hback] using hduplicates

/-- Numbers are accounted for one after the other as they should be, if the exact counts at the end fit. -/
theorem noteAll_eq_ok (hwords : ∀ n ∈ numbers, n ≤ lastWord) (hgaps : (numbers.foldl tally r).gaps ≤ lastWord)
    (hskipped : (numbers.foldl tally r).skipped ≤ lastWord) (hduplicates : (numbers.foldl tally r).duplicates ≤ lastWord) :
    r.noteAll numbers = .ok (numbers.foldl tally r) := by
  induction numbers generalizing r with
  | nil => rfl
  | cons n rest ih =>
    have hwithin := within_foldl_tally (r.tally n) rest
    have hnote : r.note n = .ok (r.tally n) :=
      note_eq_ok (hwords n List.mem_cons_self) (Nat.le_trans hwithin.gaps_le hgaps)
        (Nat.le_trans hwithin.skipped_le hskipped) (Nat.le_trans hwithin.duplicates_le hduplicates)
    rw [noteAll, hnote, ok_bind, ih (fun k hk => hwords k (List.mem_cons_of_mem _ hk)) hgaps hskipped hduplicates]
    rfl

/-- If they do not fit, accounting stops at one of the numbers. -/
theorem noteAll_eq_error (hwords : ∀ n ∈ numbers, n ≤ lastWord) (hr : r.Fits) (hover : ¬(numbers.foldl tally r).Fits) :
    ∃ e, r.noteAll numbers = .error e ∧ e.failure = .overflow .add := by
  induction numbers generalizing r with
  | nil => exact absurd hr hover
  | cons n rest ih =>
    have hword := hwords n List.mem_cons_self
    by_cases hfits : (r.tally n).Fits
    · obtain ⟨e, hrest, hfailure⟩ := ih (fun k hk => hwords k (List.mem_cons_of_mem _ hk)) hfits hover
      refine ⟨e, ?_, hfailure⟩
      rw [noteAll, note_eq_ok hword hfits.gaps_le hfits.skipped_le hfits.duplicates_le, ok_bind, hrest]
    · obtain ⟨e, hnote, hfailure⟩ := note_eq_error hword hr hfits
      refine ⟨e, ?_, hfailure⟩
      rw [noteAll, hnote, error_bind]

/-- A batch is accounted for as it should be, if the exact counts behind it fit. -/
theorem record_eq_ok (hwords : ∀ n ∈ batch, n ≤ lastWord) (hfits : (r.tallyBatch batch).Fits) :
    r.record batch = .ok (r.tallyBatch batch) := by
  cases batch with
  | nil => rfl
  | cons n rest =>
    obtain ⟨-, hreceived, hbatches⟩ := foldl_tally_kept r (n :: rest)
    have hnotes : r.noteAll (n :: rest) = .ok ((n :: rest).foldl tally r) :=
      noteAll_eq_ok hwords hfits.gaps_le hfits.skipped_le hfits.duplicates_le
    have hsum : Width.w64.add r.received (n :: rest).length = .ok (r.received + (n :: rest).length) :=
      Width.add_eq_ok hfits.received_le
    have hnext : Width.w64.add r.batches 1 = .ok (r.batches + 1) := Width.add_eq_ok hfits.batches_le
    simp only [record, tallyBatch, List.isEmpty_cons, Bool.false_eq_true, if_false, hnotes, hreceived, hbatches, hsum, hnext,
      Interrupted.guard_ok, ok_bind]

/-- If they do not fit, accounting for the batch stops at a sum that is too large. -/
theorem record_eq_error (hwords : ∀ n ∈ batch, n ≤ lastWord) (hr : r.Fits) (hover : ¬(r.tallyBatch batch).Fits) :
    ∃ e, r.record batch = .error e ∧ e.failure = .overflow .add := by
  cases batch with
  | nil => exact absurd hr hover
  | cons n rest =>
    obtain ⟨-, hreceived, hbatches⟩ := foldl_tally_kept r (n :: rest)
    by_cases hfits : ((n :: rest).foldl tally r).Fits
    · have hnotes : r.noteAll (n :: rest) = .ok ((n :: rest).foldl tally r) :=
        noteAll_eq_ok hwords hfits.gaps_le hfits.skipped_le hfits.duplicates_le
      simp only [record, List.isEmpty_cons, Bool.false_eq_true, if_false, hnotes, hreceived, hbatches, ok_bind]
      by_cases hroom : r.received + (n :: rest).length ≤ lastWord
      · by_cases hnext : r.batches + 1 ≤ lastWord
        · exact absurd ⟨hroom, hnext, hfits.gaps_le, hfits.skipped_le, hfits.duplicates_le⟩ hover
        · have hsum : Width.w64.add r.batches 1 = .error (.overflow .add) := Width.add_eq_error (Nat.lt_of_not_le hnext)
          simp only [Width.add_eq_ok hroom, hsum, Interrupted.guard_ok, Interrupted.guard_error, ok_bind, error_bind]
          exact ⟨_, rfl, rfl⟩
      · have hsum : Width.w64.add r.received (n :: rest).length = .error (.overflow .add) :=
          Width.add_eq_error (Nat.lt_of_not_le hroom)
        simp only [hsum, Interrupted.guard_error, error_bind]
        exact ⟨_, rfl, rfl⟩
    · obtain ⟨e, hnotes, hfailure⟩ := noteAll_eq_error hwords hr hfits
      refine ⟨e, ?_, hfailure⟩
      simp only [record, List.isEmpty_cons, Bool.false_eq_true, if_false, hnotes, error_bind]

/-- Accounting for a batch succeeds exactly where the exact counts fit, and brings just these. -/
theorem record_eq_ok_iff (hwords : ∀ n ∈ batch, n ≤ lastWord) (hr : r.Fits) :
    r.record batch = .ok r' ↔ (r.tallyBatch batch).Fits ∧ r' = r.tallyBatch batch := by
  by_cases hfits : (r.tallyBatch batch).Fits
  · rw [record_eq_ok hwords hfits, Except.ok.injEq, eq_comm]
    exact ⟨fun heq => ⟨hfits, heq⟩, And.right⟩
  · obtain ⟨e, hrecord, -⟩ := record_eq_error hwords hr hfits
    rw [hrecord]
    exact ⟨nofun, fun h => absurd h.1 hfits⟩

/-- Accounting for batches one after the other succeeds exactly where the exact counts fit, and brings just these. -/
theorem recordAll_eq_ok_iff {batches : List (List Nat)} (hwords : ∀ batch ∈ batches, ∀ n ∈ batch, n ≤ lastWord) (hr : r.Fits) :
    r.recordAll batches = .ok r' ↔ (batches.foldl tallyBatch r).Fits ∧ r' = batches.foldl tallyBatch r := by
  induction batches generalizing r with
  | nil =>
    rw [recordAll, Except.ok.injEq, eq_comm]
    exact ⟨fun heq => ⟨hr, heq⟩, And.right⟩
  | cons batch rest ih =>
    obtain ⟨hbatch, hrest⟩ := List.forall_mem_cons.mp hwords
    rw [recordAll, List.foldl_cons]
    by_cases hfits : (r.tallyBatch batch).Fits
    · rw [record_eq_ok hbatch hfits, ok_bind]
      exact ih hrest hfits
    · obtain ⟨e, hrecord, -⟩ := record_eq_error hbatch hr hfits
      rw [hrecord, error_bind]
      exact ⟨nofun, fun h => absurd (.of_within (within_foldl_tallyBatch _ rest) h.1) hfits⟩

/-! ## Batches -/

/-- The counts of numbers do not depend on those of samples and batches. -/
theorem foldl_tally_counted (r : Report) (numbers : List Nat) (received batches : Nat) :
    numbers.foldl tally { r with received, batches } = { numbers.foldl tally r with received, batches } := by
  induction numbers generalizing r with
  | nil => rfl
  | cons n rest ih => exact ih (r.tally n)

/-- Batches count as one batch of all their numbers would, but for the number of batches. -/
theorem foldl_tallyBatch (r : Report) (batches : List (List Nat)) :
    batches.foldl tallyBatch r = { batches.flatten.foldl tally r with
      received := r.received + batches.flatten.length
      batches := r.batches + batches.countP fun batch => !batch.isEmpty } := by
  induction batches generalizing r with
  | nil => rfl
  | cons batch rest ih =>
    rw [List.foldl_cons, ih, List.flatten_cons, List.foldl_append, List.countP_cons, List.length_append]
    cases batch with
    | nil => simp [tallyBatch]
    | cons n batch =>
      simp only [tallyBatch, List.isEmpty_cons, Bool.false_eq_true, if_false, foldl_tally_counted, Bool.not_false, if_true,
        Nat.add_assoc, Nat.add_comm 1]

end Report

end Lookback
