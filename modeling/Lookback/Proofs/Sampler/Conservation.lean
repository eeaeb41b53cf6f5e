import Lookback.Proofs.Sampler.Audience
import Lookback.Proofs.Sampler.Totals

/-!
# The balance of a report

Where numbers never go back, a report balances: from the first number to the last, every number was received or skipped, and what was
received beyond that are repetitions. Each number keeps the balance (`Report.balance_tally`): a step of `d` is one sample received, and
either a repetition, if `d` is zero, or `d - 1` numbers skipped.

The skipped numbers lie between the first and the last, so no count of such a report outgrows its word, even if a jump ends at the last
word (`Report.report_balances`).
-/

namespace Lookback

open Audience (blank)

namespace Report

variable {r : Report} {first last n : Nat} {numbers : List Nat}

/-- A number that does not go back keeps the balance: what it adds to the last number it adds to the numbers received, less the
duplicates, and the numbers skipped. -/
theorem balance_tally (hlast : r.last = some last) (hle : last ≤ n) :
    n + (r.tally n).duplicates + r.skipped = last + 1 + r.duplicates + (r.tally n).skipped ∧
      (r.tally n).gaps + r.skipped ≤ r.gaps + (r.tally n).skipped := by
  simp only [tally, jumped, passed, repeated, hlast, Option.elim_some]
  by_cases hsame : n ≤ last
  · rw [if_pos hsame, if_neg (by omega)]
    omega
  · rw [if_neg hsame]
    split <;> omega

/-- Numbers that do not go back keep the balance. -/
theorem balance_foldl_tally (hlast : r.last = some first) (hsorted : (first :: numbers).Pairwise (· ≤ ·)) :
    ∃ last, (numbers.foldl tally r).last = some last ∧
      last + (numbers.foldl tally r).duplicates + r.skipped =
        first + numbers.length + r.duplicates + (numbers.foldl tally r).skipped ∧
      (numbers.foldl tally r).gaps + r.skipped ≤ r.gaps + (numbers.foldl tally r).skipped := by
  induction numbers generalizing r first with
  | nil => exact ⟨first, hlast, rfl, Nat.le_refl _⟩
  | cons n rest ih =>
    obtain ⟨hfirst, hrest⟩ := List.pairwise_cons.mp hsorted
    obtain ⟨hbalance, hgaps⟩ := balance_tally hlast (hfirst n List.mem_cons_self)
    obtain ⟨last, hlast', hbalance', hgaps'⟩ := ih (r := r.tally n) rfl hrest
    refine ⟨last, hlast', ?_, ?_⟩
    · rw [List.foldl_cons, List.length_cons]
      omega
    · rw [List.foldl_cons]
      omega

/-- The balance of numbers that do not go back, from the first of them on. -/
theorem balance_of_sorted (name : String) (hsorted : (first :: numbers).Pairwise (· ≤ ·)) :
    ∃ last, ((first :: numbers).foldl tally (empty name)).last = some last ∧
      last + ((first :: numbers).foldl tally (empty name)).duplicates =
        first + numbers.length + passedOver (first :: numbers) ∧
      ((first :: numbers).foldl tally (empty name)).gaps ≤ passedOver (first :: numbers) := by
  have hskipped := foldl_tally_skipped name (first :: numbers)
  obtain ⟨last, hlast, hbalance, hgaps⟩ :=
    balance_foldl_tally (show ((empty name).tally first).last = some first from rfl) hsorted
  have hstart : ((empty name).tally first).skipped = 0 ∧ ((empty name).tally first).duplicates = 0 ∧
      ((empty name).tally first).gaps = 0 := ⟨rfl, rfl, rfl⟩
  rw [List.foldl_cons] at hskipped ⊢
  exact ⟨last, hlast, by omega, by omega⟩

/-- No count of numbers that do not go back outgrows its word: what was skipped lies between the first and the last of them. -/
theorem recordAll_of_sorted (name : String) {batches : List (List Nat)} (hnumbers : batches.flatten = first :: numbers)
    (hwords : ∀ n ∈ batches.flatten, n ≤ lastWord) (hsorted : batches.flatten.Pairwise (· ≤ ·))
    (hfew : batches.flatten.length ≤ lastWord) :
    (empty name).recordAll batches = .ok (batches.foldl tallyBatch (empty name)) := by
  have hcounts := foldl_tally_gaps_duplicates name batches.flatten
  have hlast := foldl_tally_last name batches.flatten
  have hwords' : ∀ batch ∈ batches, ∀ n ∈ batch, n ≤ lastWord := List.forall_mem_flatten.mp hwords
  refine (recordAll_eq_ok_iff hwords' (empty_fits name)).mpr ⟨(foldl_tallyBatch_fits_iff name hfew).mpr ?_, rfl⟩
  rw [hnumbers] at hsorted hcounts hlast hwords ⊢
  obtain ⟨last, hlast', hbalance, -⟩ := balance_of_sorted name hsorted
  have hword : last ≤ lastWord := hwords last (List.mem_of_mem_getLast? (hlast.symm.trans hlast'))
  rw [List.length_cons] at hcounts
  omega

/-- Whatever batches a new consumer receives, fewer than `2 ^ 64` samples in all whose numbers never go back: accounting for them
succeeds. The report names the first and the last number received, and balances: the numbers from the first to the last are those
received, without the duplicates, and those skipped. Each gap skips a number, and gaps and duplicates are fewer than the samples. -/
theorem report_balances (name : String) {batches : List (List Sample)} (hsome : batches.flatten ≠ [])
    (hsorted : (Sample.numbers batches.flatten).Pairwise (· ≤ ·)) (hfew : batches.flatten.length ≤ lastWord) :
    ∃ r first last, (empty name).recordAll (batches.map Sample.numbers) = .ok r ∧
      (Sample.numbers batches.flatten).head? = some first ∧ (Sample.numbers batches.flatten).getLast? = some last ∧
      r.first = some first ∧ r.last = some last ∧ r.received = batches.flatten.length ∧
      (last : Int) - first + 1 = r.received - r.duplicates + r.skipped ∧
      r.gaps ≤ r.skipped ∧ (r.gaps : Int) + r.duplicates ≤ r.received - 1 := by
  have hlength := Sample.length_numbers batches.flatten
  have hwords := Sample.numbers_le batches.flatten
  obtain ⟨first, rest, hnumbers⟩ : ∃ first rest, Sample.numbers batches.flatten = first :: rest :=
    List.exists_cons_of_ne_nil (by simpa [Sample.numbers] using hsome)
  rw [← hlength] at hfew ⊢
  rw [Sample.numbers_flatten] at hsorted hfew hwords hnumbers ⊢
  have hrecord := recordAll_of_sorted name hnumbers hwords hsorted hfew
  rw [foldl_tallyBatch] at hrecord
  rw [hnumbers] at hsorted hrecord ⊢
  have hcounts := foldl_tally_gaps_duplicates name (first :: rest)
  have hskipped := foldl_tally_skipped name (first :: rest)
  have hreceived : (empty name).received + (first :: rest).length = rest.length + 1 := Nat.zero_add _
  obtain ⟨last, hlast, hbalance, hgaps⟩ := balance_of_sorted name hsorted
  rw [List.length_cons] at hcounts
  refine ⟨_, first, last, hrecord, rfl, (foldl_tally_last name _).symm.trans hlast, foldl_tally_first name _, hlast, hreceived,
    ?_, ?_, ?_⟩
  · dsimp only
    omega
  · dsimp only
    omega
  · dsimp only
    omega

/-- Three batches, one of them empty, with a number received again, a jump of two and one to the last word. -/
theorem report_balances_to_last_word :
    ([[blank 3, blank 4], [], [blank 4, blank 7, blank 18446744073709551615]] : List (List Sample)).flatten ≠ [] ∧
      (Sample.numbers [[blank 3, blank 4], [], [blank 4, blank 7, blank 18446744073709551615]].flatten).Pairwise (· ≤ ·) ∧
      [[blank 3, blank 4], [], [blank 4, blank 7, blank 18446744073709551615]].flatten.length ≤ lastWord ∧
      ∃ r, (empty "all").recordAll [[3, 4], [], [4, 7, lastWord]] = .ok r ∧ r.received = 5 ∧ r.duplicates = 1 ∧
        r.skipped = 18446744073709551609 ∧ (lastWord : Int) - 3 + 1 = r.received - r.duplicates + r.skipped ∧
        r.gaps ≤ r.skipped ∧ (r.gaps : Int) + r.duplicates ≤ r.received - 1 := by
  have hsome : ([[blank 3, blank 4], [], [blank 4, blank 7, blank 18446744073709551615]] : List (List Sample)).flatten ≠ [] := by
    simp
  have hsorted :
      (Sample.numbers [[blank 3, blank 4], [], [blank 4, blank 7, blank 18446744073709551615]].flatten).Pairwise (· ≤ ·) := by
    decide
  have hfew : [[blank 3, blank 4], [], [blank 4, blank 7, blank 18446744073709551615]].flatten.length ≤ lastWord := by decide
  obtain ⟨r, first, last, hrecord, hfirst, hlast, -, -, -, hbalance, hgaps, hcounts⟩ := report_balances "all" hsome hsorted hfew
  obtain rfl : 3 = first := Option.some.inj hfirst
  obtain rfl : lastWord = last := Option.some.inj hlast
  have hbatches : (empty "all").recordAll [[3, 4], [], [4, 7, lastWord]] =
      .ok ⟨"all", 5, 2, 2, 18446744073709551609, 1, some 3, some lastWord⟩ := by cbv
  obtain rfl := Except.ok.inj (hbatches.symm.trans hrecord)
  exact ⟨hsome, hsorted, hfew, _, hrecord, rfl, rfl, rfl, hbalance, hgaps, hcounts⟩

end Report

end Lookback
