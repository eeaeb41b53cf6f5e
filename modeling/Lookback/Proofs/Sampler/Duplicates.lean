import Mathlib.Data.List.GetD
import Lookback.Proofs.Sampler.Audience
import Lookback.Proofs.Sampler.Totals

/-!
# What the duplicates of a report are

A report calls a sample a duplicate if its number does not exceed the number right before it. A sample received again, or after a
later one, is one whose number does not exceed some number before it, however long ago. The former are among the latter
(`stepsBack_sublist`), and a report counts just the former (`duplicates_count_steps_back`): where samples are received again one
after the other, it sees only the first of them, since each of the rest exceeds the one right before it (`replay_counted_once`).
-/

namespace Lookback

open Audience (blank)

/-- Some number before place `i` is at least the one at `i`. -/
def Overtaken (numbers : List Nat) (i : Nat) : Prop := ∃ j < i, numbers.getD i 0 ≤ numbers.getD j 0

/-- The number right before place `i` is at least the one at `i`. -/
def StepsBack (numbers : List Nat) (i : Nat) : Prop := 0 < i ∧ numbers.getD i 0 ≤ numbers.getD (i - 1) 0

instance (numbers : List Nat) : DecidablePred (Overtaken numbers) := fun i =>
  inferInstanceAs (Decidable (∃ j < i, numbers.getD i 0 ≤ numbers.getD j 0))

instance (numbers : List Nat) : DecidablePred (StepsBack numbers) := fun i =>
  inferInstanceAs (Decidable (0 < i ∧ numbers.getD i 0 ≤ numbers.getD (i - 1) 0))

/-- The places of the numbers received again, or after a later one. -/
def overtaken (numbers : List Nat) : List Nat := (List.range numbers.length).filter (Overtaken numbers ·)

/-- The places of the numbers that do not exceed the one right before them. -/
def stepsBack (numbers : List Nat) : List Nat := (List.range numbers.length).filter (StepsBack numbers ·)

variable {numbers : List Nat} {i n : Nat}

theorem StepsBack.overtaken (h : StepsBack numbers i) : Overtaken numbers i :=
  ⟨i - 1, Nat.sub_lt h.1 Nat.one_pos, h.2⟩

/-- A number that steps back was overtaken. -/
theorem stepsBack_sublist (numbers : List Nat) : (stepsBack numbers).Sublist (overtaken numbers) :=
  List.monotone_filter_right _ fun _ hback => decide_eq_true (of_decide_eq_true hback).overtaken

/-- All numbers overtaken step back if each of them does. -/
theorem stepsBack_eq_overtaken_iff :
    stepsBack numbers = overtaken numbers ↔ ∀ i < numbers.length, Overtaken numbers i → StepsBack numbers i := by
  constructor
  · intro heq i hi hovertaken
    have hmem : i ∈ stepsBack numbers := by simp [heq, overtaken, hi, hovertaken]
    exact of_decide_eq_true (List.mem_filter.mp hmem).2
  · intro hall
    refine List.filter_congr fun i hi => ?_
    rw [decide_eq_decide]
    exact ⟨StepsBack.overtaken, hall i (List.mem_range.mp hi)⟩

/-- Whether a number steps back does not depend on what comes later. -/
theorem stepsBack_append_iff (more : List Nat) (hi : i < numbers.length) :
    StepsBack (numbers ++ more) i ↔ StepsBack numbers i := by
  unfold StepsBack
  rw [List.getD_append _ _ _ _ hi, List.getD_append _ _ _ _ (Nat.lt_of_le_of_lt (Nat.sub_le _ _) hi)]

/-- Whether the last number steps back, the one before it shows. -/
theorem stepsBack_last_iff : StepsBack (numbers ++ [n]) numbers.length ↔ ∃ last, numbers.getLast? = some last ∧ n ≤ last := by
  unfold StepsBack
  rw [List.getD_append_right _ _ _ _ (Nat.le_refl _), Nat.sub_self]
  rcases List.eq_nil_or_concat' numbers with rfl | ⟨before, last, rfl⟩
  · simp
  · have hlength : (before ++ [last]).length - 1 = before.length := by simp
    have hbefore : (before ++ [last] ++ [n]).getD before.length 0 = last := by
      rw [List.append_assoc, List.getD_append_right _ _ _ _ (Nat.le_refl _), Nat.sub_self]
      rfl
    rw [hlength, hbefore, List.getLast?_concat]
    simp

/-- One more number is one more step back, or none. -/
theorem length_stepsBack_concat (numbers : List Nat) (n : Nat) :
    (stepsBack (numbers ++ [n])).length = (stepsBack numbers).length + Report.repeated numbers.getLast? n := by
  have hbefore : (List.range numbers.length).filter (StepsBack (numbers ++ [n]) ·) = stepsBack numbers :=
    List.filter_congr fun i hi => by
      simp only [stepsBack_append_iff [n] (List.mem_range.mp hi)]
  rw [stepsBack, List.length_append, List.length_singleton, List.range_succ, List.filter_append, List.length_append, hbefore,
    List.filter_singleton]
  simp only [stepsBack_last_iff]
  cases numbers.getLast? with
  | none => simp [Report.repeated]
  | some last =>
    by_cases hback : n ≤ last
    · simp [Report.repeated, hback]
    · simp [Report.repeated, hback]

/-! ## Reports -/

/-- The duplicates of a report are the steps back among the numbers received. -/
theorem Report.foldl_tally_duplicates (name : String) (numbers : List Nat) :
    (numbers.foldl tally (empty name)).duplicates = (stepsBack numbers).length := by
  induction numbers using List.reverseRecOn with
  | nil => rfl
  | append_singleton before n ih =>
    rw [List.foldl_append, length_stepsBack_concat, ← ih, ← foldl_tally_last name before]
    rfl

namespace Consumer

variable {c c' : Consumer} {batches : List (List Sample)}

/-- From `c` to `c'` by polls of whatever histories, none of them cut short, with the batches they bring. -/
inductive Receives : Consumer → List (List Sample) → Consumer → Prop where
  | done (c : Consumer) : Receives c [] c
  | poll {c c' : Consumer} {h : History Sample} {polled : Polled} {later : List (List Sample)} (poll_eq : c.poll h = .ok polled)
      (rest : Receives polled.consumer later c') : Receives c (polled.batch :: later) c'

/-- After any polls a report shows the exact counts of the batches received. -/
theorem Receives.report_eq (h : Receives c batches c') (hr : c.report.Fits) :
    c'.report = (batches.map Sample.numbers).foldl Report.tallyBatch c.report := by
  induction h with
  | done c => rfl
  | poll poll_eq rest ih =>
    obtain ⟨-, -, hreport, hfits⟩ := of_poll poll_eq hr
    rw [ih hfits, hreport]
    rfl

/-- Whatever is polled, and in whatever batches it comes, as long as no poll is cut short: the duplicates in the report of a consumer
are the samples received whose number does not exceed the one right before. These are at most as many as the samples received again
or after a later one, and all of those only if each of them follows right after a number it does not exceed. -/
theorem duplicates_count_steps_back {settings : ConsumerSettings} (h : Receives (create settings) batches c) :
    c.report.duplicates = (stepsBack (Sample.numbers batches.flatten)).length ∧
      c.report.duplicates ≤ (overtaken (Sample.numbers batches.flatten)).length ∧
      (c.report.duplicates = (overtaken (Sample.numbers batches.flatten)).length ↔
        ∀ i < (Sample.numbers batches.flatten).length,
          Overtaken (Sample.numbers batches.flatten) i → StepsBack (Sample.numbers batches.flatten) i) := by
  have hcount : c.report.duplicates = (stepsBack (Sample.numbers batches.flatten)).length := by
    rw [h.report_eq (Report.empty_fits _), Report.foldl_tallyBatch, Sample.numbers_flatten]
    exact Report.foldl_tally_duplicates _ _
  have hsublist := stepsBack_sublist (Sample.numbers batches.flatten)
  refine ⟨hcount, ?_, ?_⟩
  · rw [hcount]
    exact hsublist.length_le
  · rw [hcount, hsublist.length_eq]
    exact stepsBack_eq_overtaken_iff

/-- One batch goes back by one and forward again. Its second sample steps back; its third one does not, but was received before. -/
theorem duplicates_count_step_back_within_batch :
    ∃ c, Receives (create ⟨"all", 3, .windowed, false, 1⟩) [[blank 5, blank 4, blank 5]] c ∧
      Sample.numbers [[blank 5, blank 4, blank 5]].flatten = [5, 4, 5] ∧
      stepsBack [5, 4, 5] = [1] ∧ overtaken [5, 4, 5] = [1, 2] ∧
      c.report.duplicates = [1].length ∧ c.report.duplicates ≤ [1, 2].length := by
  have hpoll : (create ⟨"all", 3, .windowed, false, 1⟩).poll
      ⟨⟨#[blank 5, blank 4, blank 5], 3, 0, 3, 3⟩⟩ =
      .ok ⟨[blank 5, blank 4, blank 5],
        ⟨⟨"all", 3, .windowed, false, 1⟩, 3, ⟨"all", 3, 1, 0, 0, 1, some 5, some 5⟩⟩⟩ := by cbv
  have hreceives : Receives (create ⟨"all", 3, .windowed, false, 1⟩)
      [[blank 5, blank 4, blank 5]]
      ⟨⟨"all", 3, .windowed, false, 1⟩, 3, ⟨"all", 3, 1, 0, 0, 1, some 5, some 5⟩⟩ := .poll hpoll (.done _)
  obtain ⟨hcount, hle, -⟩ := duplicates_count_steps_back hreceives
  exact ⟨_, hreceives, rfl, by decide, by decide, hcount, hle⟩

end Consumer

/-- Two samples are inserted and polled, and then two more with the same numbers. Both of these were received before, and the report
counts one duplicate. -/
theorem Audience.replay_counted_once :
    ∃ a l, (opening 4 [⟨"d", 4, .windowed, false, 10⟩]).run
        [.edit (.insertMany [blank 5, blank 6]), .poll 0, .edit (.insertMany [blank 5, blank 6]), .poll 0] = .ok a ∧
      a.listeners = [l] ∧ Sample.numbers l.given.flatten = [5, 6, 5, 6] ∧ overtaken [5, 6, 5, 6] = [2, 3] ∧
      l.consumer.report.duplicates ≠ (overtaken (Sample.numbers l.given.flatten)).length := by
  have hrun : (opening 4 [⟨"d", 4, .windowed, false, 10⟩]).run
      [.edit (.insertMany [blank 5, blank 6]), .poll 0, .edit (.insertMany [blank 5, blank 6]), .poll 0] =
      .ok ⟨⟨⟨#[blank 5, blank 6, blank 5, blank 6], 4, 0, 4, 4⟩⟩,
        [⟨⟨⟨"d", 4, .windowed, false, 10⟩, 4, ⟨"d", 4, 2, 0, 0, 1, some 5, some 6⟩⟩,
          [[blank 5, blank 6], [blank 5, blank 6]]⟩]⟩ := by cbv
  exact ⟨_, _, hrun, rfl, rfl, by decide, by decide⟩

end Lookback
