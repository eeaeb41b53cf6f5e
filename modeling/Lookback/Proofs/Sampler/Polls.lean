import Lookback.Proofs.History.Cursors
import Lookback.Proofs.Sampler.Accounts
import Lookback.Sampler.Consumer

/-!
# Polls

A poll reads a batch and then accounts for it. Whatever the samples are numbered, it brings what was read as long as the exact
counts of the report fit into words, and is cut short where they do not (`poll_eq_ok`, `poll_eq_error`).

Where every sample of a history carries the number of its place in the past (`Numbered`), the numbers of a batch are the places
its reading passes. So the cursor of a consumer lies behind all numbers it received, and the next batch begins at the cursor
or later: the numbers received increase, and the report counts exactly what is missing among them. `Consumer.Tracks` is this
invariant; a poll keeps it, and is never cut short (`Tracks.poll`).
-/

namespace Lookback

/-- Where an element is replaced by one with the same image, the list of images stays. -/
theorem map_set_of_eq {α β : Type} {f : α → β} {l : List α} {i : Nat} {a b : α} (hi : l[i]? = some a) (heq : f b = f a) :
    (l.set i b).map f = l.map f := by
  apply List.ext_getElem?
  intro j
  rw [List.getElem?_map, List.getElem?_map, List.getElem?_set]
  by_cases hj : i = j
  · obtain ⟨hlt, -⟩ := List.getElem?_eq_some_iff.mp hi
    rw [if_pos hj, if_pos hlt, ← hj, hi, Option.map_some, Option.map_some, heq]
  · rw [if_neg hj]

/-- The numbers of samples, in their order. -/
def Sample.numbers (samples : List Sample) : List Nat := samples.map fun s => s.sequence.toNat

/-- The samples of a past are numbered from zero in the order of their insertion. -/
def Numbered (past : List Sample) : Prop := Sample.numbers past = List.range past.length

theorem Sample.numbers_append (samples more : List Sample) : numbers (samples ++ more) = numbers samples ++ numbers more :=
  List.map_append

@[simp] theorem Sample.length_numbers (samples : List Sample) : (numbers samples).length = samples.length :=
  List.length_map _

/-- The numbers of batches put end to end. -/
theorem Sample.numbers_flatten (batches : List (List Sample)) : numbers batches.flatten = (batches.map numbers).flatten :=
  List.map_flatten

/-- Numbers of samples are words. -/
theorem Sample.numbers_le (samples : List Sample) : ∀ n ∈ numbers samples, n ≤ lastWord := by
  intro n hn
  obtain ⟨s, -, rfl⟩ := List.mem_map.mp hn
  exact Nat.le_of_lt_succ s.sequence.toNat_lt

namespace Numbered

variable {past later : List Sample} {i j : Nat}

/-- The sample at a place carries the number of that place. -/
theorem map_getElem? (h : Numbered past) (hi : i < past.length) : past[i]?.map (fun s => s.sequence.toNat) = some i := by
  have hplace := congrArg (·[i]?) h
  simp only [Sample.numbers, List.getElem?_map, List.getElem?_range hi] at hplace
  exact hplace

theorem of_prefix (h : Numbered later) (hbegin : past <+: later) : Numbered past := by
  obtain ⟨added, rfl⟩ := hbegin
  unfold Numbered at h ⊢
  rw [Sample.numbers_append, List.length_append, List.range_add] at h
  exact (List.append_inj h (by simp [Sample.numbers])).1

/-- The numbers of a stretch are its places. -/
theorem numbers_extract (h : Numbered past) (hj : j ≤ past.length) :
    Sample.numbers (past.extract i j) = List.range' i (j - i) := by
  have hlength := Stretch.length_extract (i := i) hj
  apply List.ext_getElem?
  intro k
  rw [Sample.numbers, List.getElem?_map]
  by_cases hk : k < j - i
  · rw [Stretch.getElem?_extract hk, h.map_getElem? (by omega), List.getElem?_range' hk, Nat.one_mul]
  · rw [List.getElem?_eq_none (by omega), List.getElem?_eq_none (by rw [List.length_range']; omega)]
    rfl

/-- A stretch received after other batches adds its places to their numbers. -/
theorem numbers_concat (h : Numbered past) (batches : List (List Sample)) (hj : j ≤ past.length) :
    Sample.numbers (batches ++ [past.extract i j]).flatten = Sample.numbers batches.flatten ++ List.range' i (j - i) := by
  rw [List.flatten_append, List.flatten_singleton, Sample.numbers_append, h.numbers_extract hj]

end Numbered

namespace Consumer

variable {c : Consumer} {h : History Sample} {past : List Sample} {recent : Nat} {batches : List (List Sample)}

/-! ## Polls of samples with any numbers -/

/-- A poll brings what was read and the exact counts, if these fit. -/
theorem poll_eq_ok {reading : Reading Sample} (hread : h.read c.settings.request c.cursor = .ok reading)
    (hfits : (c.report.tallyBatch (Sample.numbers reading.batch)).Fits) :
    c.poll h =
      .ok ⟨reading.batch, ⟨c.settings, reading.cursor, c.report.tallyBatch (Sample.numbers reading.batch)⟩⟩ := by
  have hrecord := Report.record_eq_ok (Sample.numbers_le reading.batch) hfits
  unfold Consumer.poll
  rw [hread, Interrupted.guard_ok, ok_bind]
  unfold Sample.numbers at hrecord ⊢
  simp only [hrecord]

/-- If they do not fit, the poll is cut short while it accounts for the batch. -/
theorem poll_eq_error {reading : Reading Sample} (hread : h.read c.settings.request c.cursor = .ok reading)
    (hr : c.report.Fits) (hover : ¬(c.report.tallyBatch (Sample.numbers reading.batch)).Fits) :
    ∃ e, c.poll h = .error e ∧ e.failure = .overflow .add := by
  obtain ⟨e, hrecord, hfailure⟩ := Report.record_eq_error (Sample.numbers_le reading.batch) hr hover
  unfold Sample.numbers at hrecord
  refine ⟨⟨{ c with cursor := reading.cursor, report := e.state }, e.failure⟩, ?_, hfailure⟩
  unfold Consumer.poll
  rw [hread, Interrupted.guard_ok, ok_bind]
  simp only [hrecord]

/-- A poll that was not cut short brought what was read, and counted it. -/
theorem of_poll {polled : Polled} (hpoll : c.poll h = .ok polled) (hr : c.report.Fits) :
    h.read c.settings.request c.cursor = .ok ⟨polled.batch, polled.consumer.cursor⟩ ∧
      polled.consumer.settings = c.settings ∧
      polled.consumer.report = c.report.tallyBatch (Sample.numbers polled.batch) ∧ polled.consumer.report.Fits := by
  cases hread : h.read c.settings.request c.cursor with
  | error failure =>
    rw [Consumer.poll, hread] at hpoll
    nomatch hpoll
  | ok reading =>
    by_cases hfits : (c.report.tallyBatch (Sample.numbers reading.batch)).Fits
    · rw [poll_eq_ok hread hfits] at hpoll
      obtain rfl := Except.ok.inj hpoll
      exact ⟨rfl, rfl, rfl, hfits⟩
    · obtain ⟨e, herror, -⟩ := poll_eq_error hread hr hfits
      rw [herror] at hpoll
      nomatch hpoll

/-- A consumer of a past of so many samples: it is not ahead of them, and its report fits into words. -/
structure Within (c : Consumer) (length : Nat) : Prop where
  cursor_le : c.cursor ≤ length
  fits : c.report.Fits

theorem create_within (settings : ConsumerSettings) : (create settings).Within 0 :=
  ⟨Nat.le_refl 0, Report.empty_fits settings.name⟩

/-- Insertions do not disturb a consumer. -/
theorem Within.mono {length more : Nat} (hc : c.Within length) (hle : length ≤ more) : c.Within more :=
  { hc with cursor_le := Nat.le_trans hc.cursor_le hle }

/-- A poll is cut short by a sum that is too large, or leaves the consumer within the past. -/
theorem Within.poll (hc : c.Within past.length) (hrec : h.ring.Records 0 past recent) (hfew : past.length ≤ lastWord) :
    (∃ e, c.poll h = .error e ∧ e.failure = .overflow .add) ∨
      ∃ polled, c.poll h = .ok polled ∧ polled.consumer.settings = c.settings ∧ polled.consumer.Within past.length := by
  have hread : h.read c.settings.request c.cursor = .ok (c.settings.request.answer past h.size c.cursor) :=
    hrec.read_eq_answer (History.cursor_eq_length hrec hfew) _ (Nat.le_trans hc.cursor_le hfew)
  have hheld : h.size ≤ past.length := hrec.live_le_length
  obtain ⟨-, -, hlast⟩ := Request.answer_cursor (q := c.settings.request) hheld hc.cursor_le
  by_cases hfits : (c.report.tallyBatch (Sample.numbers (c.settings.request.answer past h.size c.cursor).batch)).Fits
  · exact Or.inr ⟨_, poll_eq_ok hread hfits, rfl, hlast, hfits⟩
  · exact Or.inl (poll_eq_error hread hc.fits hfits)

/-! ## Polls of numbered samples -/

/-- A consumer that was given `batches` of a past of `length` samples: they went forward up to its cursor, and its report
covers them. -/
structure Tracks (c : Consumer) (length : Nat) (batches : List (List Sample)) : Prop where
  cursor_le : c.cursor ≤ length
  increasing : (Sample.numbers batches.flatten).Pairwise (· < ·)
  behind : ∀ n ∈ Sample.numbers batches.flatten, n < c.cursor
  covers : c.report.Covers (batches.map Sample.numbers)
  name_eq : c.report.name = c.settings.name

theorem create_tracks (settings : ConsumerSettings) : (create settings).Tracks 0 [] where
  cursor_le := Nat.le_refl 0
  increasing := List.Pairwise.nil
  behind := by simp [Sample.numbers]
  covers := Report.empty_covers _
  name_eq := rfl

/-- Insertions do not disturb a consumer. -/
theorem Tracks.mono {length more : Nat} (ht : c.Tracks length batches) (hle : length ≤ more) : c.Tracks more batches :=
  { ht with cursor_le := Nat.le_trans ht.cursor_le hle }

/-- What a poll should bring. -/
def answer (c : Consumer) (past : List Sample) (held : Nat) : Reading Sample :=
  c.settings.request.answer past held c.cursor

/-- A consumer that is given a stretch from its cursor on has received increasing numbers. -/
theorem Tracks.increasing_concat (ht : c.Tracks past.length batches) (hnum : Numbered past) {reading : Reading Sample}
    (hbatch : reading.batch = past.extract reading.first reading.cursor)
    (hmove : c.cursor ≤ reading.first ∧ reading.first ≤ reading.cursor ∧ reading.cursor ≤ past.length) :
    (Sample.numbers (batches ++ [reading.batch]).flatten).Pairwise (· < ·) ∧
      ∀ n ∈ Sample.numbers (batches ++ [reading.batch]).flatten, n < reading.cursor := by
  obtain ⟨hfirst, hlast, hend⟩ := hmove
  rw [hbatch, hnum.numbers_concat batches hend, List.pairwise_append]
  refine ⟨⟨ht.increasing, List.pairwise_lt_range', ?_⟩, ?_⟩
  · intro m hm n hn
    have hm := ht.behind m hm
    have hn := List.mem_range'_1.mp hn
    omega
  · intro n hn
    rcases List.mem_append.mp hn with hn | hn
    · have hn := ht.behind n hn
      omega
    · have hn := List.mem_range'_1.mp hn
      omega

/-- A poll of a history of numbered samples brings what it should, and the report goes on covering what was received. -/
theorem Tracks.poll (ht : c.Tracks past.length batches) (hrec : h.ring.Records 0 past recent)
    (hfew : past.length ≤ lastWord) (hnum : Numbered past) :
    ∃ polled, c.poll h = .ok polled ∧ polled.batch = (c.answer past h.size).batch ∧
      polled.consumer.cursor = (c.answer past h.size).cursor ∧ polled.consumer.settings = c.settings ∧
      polled.consumer.Tracks past.length (batches ++ [polled.batch]) := by
  have hheld : h.size ≤ past.length := hrec.live_le_length
  have hread : h.read c.settings.request c.cursor = .ok (c.answer past h.size) :=
    hrec.read_eq_answer (History.cursor_eq_length hrec hfew) _ (Nat.le_trans ht.cursor_le hfew)
  have hbatch : (c.answer past h.size).batch =
      past.extract (c.answer past h.size).first (c.answer past h.size).cursor := Request.answer_batch hheld
  have hmove : c.cursor ≤ (c.answer past h.size).first ∧ (c.answer past h.size).first ≤ (c.answer past h.size).cursor ∧
      (c.answer past h.size).cursor ≤ past.length := Request.answer_cursor hheld ht.cursor_le
  obtain ⟨hincreasing, hbehind⟩ := ht.increasing_concat hnum hbatch hmove
  have hflatten : Sample.numbers (batches ++ [(c.answer past h.size).batch]).flatten =
      (batches.map Sample.numbers ++ [Sample.numbers (c.answer past h.size).batch]).flatten := by
    rw [Sample.numbers_flatten, List.map_append, List.map_singleton]
  rw [hflatten] at hincreasing hbehind
  have hcovers := ht.covers.tallyBatch hincreasing
  have hfits := hcovers.fits hincreasing fun n hn => Nat.lt_of_lt_of_le (hbehind n hn) (Nat.le_trans hmove.2.2 hfew)
  refine ⟨_, poll_eq_ok hread hfits, rfl, rfl, rfl, ?_⟩
  constructor
  case cursor_le => exact hmove.2.2
  case increasing => rwa [hflatten]
  case behind => rwa [hflatten]
  case covers =>
    rw [List.map_append, List.map_singleton]
    exact hcovers
  case name_eq => exact (Report.tallyBatch_name _ _).trans ht.name_eq

end Consumer

end Lookback
