import Mathlib.Data.List.Basic
import Lookback.Proofs.Sampler.Accounts

/-!
# What the counts of a report come to

A report of a new consumer follows from the numbers received alone, in whatever order they came. It names the first and the last of
them. Each number but the first is a gap, a duplicate or neither, so the gaps and duplicates together are fewer than the numbers
(`Report.foldl_tally_gaps_duplicates`). The numbers skipped are the lengths of all jumps added up (`passedOver`), and this sum alone
is not bounded by how much was received: where numbers go back, they may pass over the same stretch again and again.

So of all counts of a report only the numbers skipped can outgrow a word while fewer than `2 ^ 64` samples are received
(`Report.foldl_tallyBatch_fits_iff`).
-/

namespace Lookback

/-- The numbers passed over on the way through a list: wherever a number jumps ahead of the one before it, those between the two,
counted each time. -/
def passedOver : List Nat → Nat
  | last :: n :: rest => n - last - 1 + passedOver (n :: rest)
  | _ => 0

namespace Report

variable {r : Report} {last : Nat}

/-- The first number of a report stays. -/
theorem foldl_tally_first_of_some {first : Nat} (hfirst : r.first = some first) (numbers : List Nat) :
    (numbers.foldl tally r).first = some first := by
  induction numbers generalizing r with
  | nil => exact hfirst
  | cons n rest ih =>
    have hnext : (r.tally n).first = some first := by rw [tally, hfirst, Option.getD_some]
    exact ih hnext

/-- The first number of a report is the first one received. -/
theorem foldl_tally_first (name : String) (numbers : List Nat) :
    (numbers.foldl tally (empty name)).first = numbers.head? := by
  cases numbers with
  | nil => rfl
  | cons n rest => exact foldl_tally_first_of_some rfl rest

/-- The last number of a report is the last one received. -/
theorem foldl_tally_last (name : String) (numbers : List Nat) :
    (numbers.foldl tally (empty name)).last = numbers.getLast? := by
  rcases List.eq_nil_or_concat' numbers with rfl | ⟨before, last, rfl⟩
  · rfl
  · rw [List.foldl_append, List.getLast?_concat]
    rfl

/-- A number is a gap, a duplicate or neither. -/
theorem jumped_add_repeated_le (last : Option Nat) (n : Nat) : jumped last n + repeated last n ≤ 1 := by
  cases last with
  | none => exact Nat.zero_le _
  | some last =>
    simp only [jumped, repeated, Option.elim_some]
    by_cases hback : n ≤ last
    · rw [if_neg (by omega), if_pos hback]
    · rw [if_neg hback]
      split <;> omega

theorem foldl_tally_gaps_duplicates_le (r : Report) (numbers : List Nat) :
    (numbers.foldl tally r).gaps + (numbers.foldl tally r).duplicates ≤ r.gaps + r.duplicates + numbers.length := by
  induction numbers generalizing r with
  | nil => exact Nat.le_refl _
  | cons n rest ih =>
    have hrest := ih (r.tally n)
    have hone := jumped_add_repeated_le r.last n
    have hgaps : (r.tally n).gaps = r.gaps + jumped r.last n := rfl
    have hduplicates : (r.tally n).duplicates = r.duplicates + repeated r.last n := rfl
    rw [List.foldl_cons, List.length_cons]
    omega

/-- The first number is neither a gap nor a duplicate. -/
theorem foldl_tally_gaps_duplicates (name : String) (numbers : List Nat) :
    (numbers.foldl tally (empty name)).gaps + (numbers.foldl tally (empty name)).duplicates ≤ numbers.length - 1 := by
  cases numbers with
  | nil => exact Nat.le_refl _
  | cons n rest =>
    have hrest := foldl_tally_gaps_duplicates_le ((empty name).tally n) rest
    have hfirst : ((empty name).tally n).gaps + ((empty name).tally n).duplicates = 0 := rfl
    rw [List.foldl_cons, List.length_cons]
    omega

theorem foldl_tally_skipped_of_last (hlast : r.last = some last) (numbers : List Nat) :
    (numbers.foldl tally r).skipped = r.skipped + passedOver (last :: numbers) := by
  induction numbers generalizing r last with
  | nil => rfl
  | cons n rest ih =>
    have hnext : (r.tally n).skipped = r.skipped + (n - last - 1) := by rw [tally, passed, hlast, Option.elim_some]
    rw [List.foldl_cons, ih (show (r.tally n).last = some n from rfl), hnext, passedOver, Nat.add_assoc]

/-- The numbers skipped are those passed over, jump by jump. -/
theorem foldl_tally_skipped (name : String) (numbers : List Nat) :
    (numbers.foldl tally (empty name)).skipped = passedOver numbers := by
  cases numbers with
  | nil => rfl
  | cons n rest =>
    have hfirst : ((empty name).tally n).skipped = 0 := rfl
    rw [List.foldl_cons, foldl_tally_skipped_of_last (show ((empty name).tally n).last = some n from rfl), hfirst, Nat.zero_add]

/-- All counters but that of the numbers skipped are words. -/
structure RestFits (r : Report) : Prop where
  received_le : r.received ≤ lastWord
  batches_le : r.batches ≤ lastWord
  gaps_le : r.gaps ≤ lastWord
  duplicates_le : r.duplicates ≤ lastWord

theorem RestFits.of_within {r' : Report} (h : r.Within r') (hrest : r'.RestFits) : r.RestFits where
  received_le := Nat.le_trans h.received_le hrest.received_le
  batches_le := Nat.le_trans h.batches_le hrest.batches_le
  gaps_le := Nat.le_trans h.gaps_le hrest.gaps_le
  duplicates_le := Nat.le_trans h.duplicates_le hrest.duplicates_le

theorem RestFits.fits (h : r.RestFits) (hskipped : r.skipped ≤ lastWord) : r.Fits :=
  ⟨h.received_le, h.batches_le, h.gaps_le, hskipped, h.duplicates_le⟩

/-- Where fewer than `2 ^ 64` numbers were received, no other count outgrows a word. -/
theorem foldl_tallyBatch_restFits (name : String) {batches : List (List Nat)} (hfew : batches.flatten.length ≤ lastWord) :
    (batches.foldl tallyBatch (empty name)).RestFits := by
  have hcounts := foldl_tally_gaps_duplicates name batches.flatten
  have hbatches := countP_le_length_flatten batches
  rw [foldl_tallyBatch]
  constructor
  case received_le => simpa [empty] using hfew
  case batches_le => simpa [empty] using Nat.le_trans hbatches hfew
  case gaps_le => dsimp only; omega
  case duplicates_le => dsimp only; omega

theorem foldl_tallyBatch_skipped (name : String) (batches : List (List Nat)) :
    (batches.foldl tallyBatch (empty name)).skipped = passedOver batches.flatten := by
  rw [foldl_tallyBatch]
  exact foldl_tally_skipped name batches.flatten

/-- Where fewer than `2 ^ 64` numbers were received, the counts of a report fit into words if the numbers skipped do. -/
theorem foldl_tallyBatch_fits_iff (name : String) {batches : List (List Nat)} (hfew : batches.flatten.length ≤ lastWord) :
    (batches.foldl tallyBatch (empty name)).Fits ↔ passedOver batches.flatten ≤ lastWord := by
  rw [← foldl_tallyBatch_skipped name]
  exact ⟨Fits.skipped_le, (foldl_tallyBatch_restFits name hfew).fits⟩

end Report

end Lookback
