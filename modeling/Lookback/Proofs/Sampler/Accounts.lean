import Lookback.Proofs.Sampler.Holes
import Lookback.Proofs.Sampler.Tally

/-!
# What a report says of increasing numbers

A report looks at one number at a time and remembers only the last one. Where the numbers received increase, that is enough to
count exactly what is missing among them: `Report.Accounts` says that a report counts no duplicates, the missing numbers as
skipped and their holes as gaps, and each further number keeps it so (`Accounts.tally`). `Report.Covers` says the same of
batches; a batch may begin anywhere, also within what one jump would have passed over (`Covers.tallyBatch`).

No counter overflows on the way: whatever is counted are numbers below the last one, and that one fits its word
(`Covers.fits`).
-/

namespace Lookback

namespace Report

variable {r : Report} {numbers more : List Nat} {last n : Nat}

/-- The report counts what is missing among increasing numbers. -/
structure Accounts (r : Report) (numbers : List Nat) : Prop where
  duplicates_eq : r.duplicates = 0
  first_eq : r.first = numbers.head?
  last_eq : r.last = numbers.getLast?
  skipped_eq : r.skipped = (missing numbers).length
  gaps_eq : r.gaps = (holes numbers).length

theorem empty_accounts (name : String) : (empty name).Accounts [] :=
  ⟨rfl, rfl, rfl, rfl, rfl⟩

/-! ## Numbers -/

/-- The report goes on counting what is missing. -/
theorem Accounts.tally (h : r.Accounts numbers) (hincreasing : (numbers ++ [n]).Pairwise (· < ·)) :
    (r.tally n).Accounts (numbers ++ [n]) := by
  have hlast := h.last_eq
  cases hcase : numbers.getLast? with
  | none =>
    obtain rfl := List.getLast?_eq_none_iff.mp hcase
    rw [hcase] at hlast
    have hfirst : r.first = none := h.first_eq
    constructor
    case duplicates_eq => simp [Report.tally, repeated, hlast, h.duplicates_eq]
    case first_eq => simp [Report.tally, hfirst]
    case last_eq => rfl
    case skipped_eq =>
      rw [List.nil_append, missing_singleton]
      simpa [Report.tally, passed, hlast, missing] using h.skipped_eq
    case gaps_eq =>
      rw [List.nil_append, holes, missing_singleton]
      simpa [Report.tally, jumped, hlast, holes, missing] using h.gaps_eq
  | some last =>
    rw [hcase] at hlast
    obtain ⟨-, -, hless⟩ := List.pairwise_append.mp hincreasing
    have hlater : last < n := hless last (List.mem_of_mem_getLast? hcase) n List.mem_cons_self
    obtain ⟨first, hfirst⟩ := exists_head? hcase
    constructor
    case duplicates_eq => simp [Report.tally, repeated, hlast, h.duplicates_eq, hlater]
    case first_eq => simp [Report.tally, h.first_eq, hfirst]
    case last_eq => simp [Report.tally]
    case skipped_eq =>
      simp only [Report.tally, passed, hlast, Option.elim_some, h.skipped_eq, length_missing_concat hincreasing hcase]
    case gaps_eq =>
      simp only [Report.tally, jumped, hlast, Option.elim_some, h.gaps_eq, length_holes_concat hincreasing hcase]

/-- The report goes on counting what is missing, number by number. -/
theorem Accounts.foldl_tally (h : r.Accounts numbers) (hincreasing : (numbers ++ more).Pairwise (· < ·)) :
    (more.foldl Report.tally r).Accounts (numbers ++ more) := by
  induction more generalizing r numbers with
  | nil => simpa using h
  | cons n rest ih =>
    rw [List.append_cons] at hincreasing ⊢
    exact ih (h.tally (List.pairwise_append.mp hincreasing).1) hincreasing

/-- Where the last number fits its word the counters do. -/
theorem Accounts.counters_le (h : r.Accounts numbers) (hwords : ∀ n ∈ numbers, n ≤ lastWord) :
    r.gaps ≤ lastWord ∧ r.skipped ≤ lastWord ∧ r.duplicates ≤ lastWord := by
  have hskipped : r.skipped ≤ lastWord := by
    rw [h.skipped_eq]
    cases hlast : numbers.getLast? with
    | none =>
      rw [List.getLast?_eq_none_iff.mp hlast]
      exact Nat.zero_le _
    | some last =>
      obtain ⟨first, hfirst⟩ := exists_head? hlast
      have hmissing := length_missing_le hfirst hlast
      have hword := hwords last (List.mem_of_mem_getLast? hlast)
      omega
  have hholes := length_holes_le numbers
  rw [← h.gaps_eq, ← h.skipped_eq] at hholes
  refine ⟨Nat.le_trans hholes hskipped, hskipped, ?_⟩
  rw [h.duplicates_eq]
  exact Nat.zero_le _

/-! ## Batches -/

/-- The report covers the batches received, their numbers increasing. -/
structure Covers (r : Report) (batches : List (List Nat)) : Prop where
  accounts : r.Accounts batches.flatten
  received_eq : r.received = batches.flatten.length
  batches_eq : r.batches = batches.countP fun batch => !batch.isEmpty

theorem empty_covers (name : String) : (empty name).Covers [] :=
  ⟨empty_accounts name, rfl, rfl⟩

/-- Increasing numbers below a bound are at most as many. -/
theorem length_le_of_increasing (hincreasing : numbers.Pairwise (· < ·)) (hbound : ∀ k ∈ numbers, k < n) :
    numbers.length ≤ n := by
  have hnodup : numbers.Nodup := hincreasing.imp fun h => Nat.ne_of_lt h
  have hsubset : numbers ⊆ List.range n := fun k hk => List.mem_range.mpr (hbound k hk)
  have hle := (List.subperm_of_subset hnodup hsubset).length_le
  rwa [List.length_range] at hle

/-- Each batch that brings something brings at least one number. -/
theorem countP_le_length_flatten (batches : List (List Nat)) :
    (batches.countP fun batch => !batch.isEmpty) ≤ batches.flatten.length := by
  induction batches with
  | nil => exact Nat.le_refl _
  | cons batch rest ih =>
    rw [List.countP_cons, List.flatten_cons, List.length_append]
    cases batch with
    | nil => simpa using ih
    | cons n batch =>
      simp only [List.isEmpty_cons, Bool.not_false, if_true, List.length_cons]
      omega

/-- One more batch, its numbers going on from those before, is covered as well. -/
theorem Covers.tallyBatch {batches : List (List Nat)} {batch : List Nat} (h : r.Covers batches)
    (hincreasing : (batches ++ [batch]).flatten.Pairwise (· < ·)) : (r.tallyBatch batch).Covers (batches ++ [batch]) := by
  have hflatten : (batches ++ [batch]).flatten = batches.flatten ++ batch := by simp
  rw [hflatten] at hincreasing
  have haccounts := h.accounts.foldl_tally hincreasing
  cases batch with
  | nil =>
    constructor
    case accounts => simpa [Report.tallyBatch] using h.accounts
    case received_eq => simpa [Report.tallyBatch] using h.received_eq
    case batches_eq => simpa [Report.tallyBatch] using h.batches_eq
  | cons n rest =>
    constructor
    case accounts =>
      rw [hflatten]
      exact ⟨haccounts.duplicates_eq, haccounts.first_eq, haccounts.last_eq, haccounts.skipped_eq, haccounts.gaps_eq⟩
    case received_eq =>
      rw [hflatten, List.length_append, ← h.received_eq]
      rfl
    case batches_eq =>
      rw [List.countP_append, List.countP_singleton, ← h.batches_eq]
      rfl

/-- What a report covers fits into its counters. -/
theorem Covers.fits {batches : List (List Nat)} (h : r.Covers batches) (hincreasing : batches.flatten.Pairwise (· < ·))
    (hword : ∀ n ∈ batches.flatten, n < lastWord) : r.Fits := by
  obtain ⟨hgaps, hskipped, hduplicates⟩ := h.accounts.counters_le fun n hn => Nat.le_of_lt (hword n hn)
  have hfew := length_le_of_increasing hincreasing hword
  have hpolls := countP_le_length_flatten batches
  rw [← h.received_eq] at hfew hpolls
  rw [← h.batches_eq] at hpolls
  exact ⟨hfew, Nat.le_trans hpolls hfew, hgaps, hskipped, hduplicates⟩

end Report

end Lookback
