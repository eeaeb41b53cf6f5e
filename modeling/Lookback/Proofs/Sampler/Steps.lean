import Lookback.Proofs.Sampler.Drains
import Lookback.Proofs.Sampler.Valid
import Lookback.Proofs.Sampler.Written

/-!
# Consumers of a history that was never cleared

Where nothing was cleared, only overwriting takes samples from a consumer. Its cursor then stands right behind the last sample
it received, or at zero as long as there is none (`InStep`): a poll that brings nothing leaves it there, since nothing is missing
before the samples that are held. At the end of a drain the consumer has received the newest sample, or waits for a full
batch with fewer samples left than that (`InStep.caughtUp`).

A consumer that reads in order from a history with a slot for every sample skips none. It need not begin with the first one: as long
as its cursor is zero it is offered no more than its batch size of the newest samples.
-/

namespace Lookback

/-- The number of the sample after the last one received. -/
def Report.next (r : Report) : Nat :=
  match r.last with
  | none => 0
  | some last => last + 1

/-- The last sample received is the one before the next. -/
theorem Report.last_of_next {r : Report} {n : Nat} (h : r.next = n) : r.last = if n = 0 then none else some (n - 1) := by
  unfold Report.next at h
  cases hlast : r.last with
  | none => simp_all
  | some last =>
    simp only [hlast] at h
    rw [if_neg (by omega)]
    congr 1
    omega

/-- Full batches have as many elements as there are batches that bring something, times the size of a batch. -/
theorem length_flatten_of_full {α : Type} {batches : List (List α)} {amount : Nat}
    (hfull : ∀ batch ∈ batches, batch ≠ [] → batch.length = amount) :
    batches.flatten.length = (batches.countP fun batch => !batch.isEmpty) * amount := by
  induction batches with
  | nil => simp
  | cons batch rest ih =>
    have hrest := ih fun b hb => hfull b (List.mem_cons_of_mem _ hb)
    rw [List.flatten_cons, List.length_append, hrest, List.countP_cons]
    by_cases hempty : batch = []
    · simp [hempty]
    · have hsome : batch.isEmpty = false := by simpa using hempty
      rw [hfull batch List.mem_cons_self hempty, hsome, Bool.not_false, if_pos rfl, Nat.succ_mul, Nat.add_comm]

namespace Consumer

variable {c c' : Consumer} {h : History Sample} {capacity length : Nat} {past : List Sample}
  {batches given : List (List Sample)}

/-- A consumer that was given `batches` of `length` samples, none of them ever cleared: its cursor is right behind the last sample
received, exact batches are full, and what is read in order from a history with a slot for each sample has no jumps. -/
structure InStep (c : Consumer) (capacity length : Nat) (batches : List (List Sample)) : Prop where
  fits : c.settings.Fits capacity
  tracks : c.Tracks length batches
  cursor_eq : c.cursor = c.report.next
  full : c.settings.exact = true → ∀ batch ∈ batches, batch ≠ [] → batch.length = c.settings.amount.toNat
  unbroken : c.settings.mode = .continuous → length ≤ capacity →
    ∃ first, first ≤ c.cursor ∧ Sample.numbers batches.flatten = List.range' first (c.cursor - first)

theorem create_inStep {settings : ConsumerSettings} (hfits : settings.Fits capacity) :
    (create settings).InStep capacity 0 [] where
  fits := hfits
  tracks := create_tracks settings
  cursor_eq := rfl
  full := by simp
  unbroken := fun _ _ => ⟨0, Nat.le_refl 0, rfl⟩

/-- Insertions do not disturb a consumer. -/
theorem InStep.mono {more : Nat} (hs : c.InStep capacity length batches) (hle : length ≤ more) :
    c.InStep capacity more batches :=
  { hs with
    tracks := hs.tracks.mono hle
    unbroken := fun hmode hroom => hs.unbroken hmode (Nat.le_trans hle hroom) }

/-! ## One poll -/

/-- The report names the last of all samples received. -/
theorem Tracks.last_eq (ht : c.Tracks length batches) : c.report.last = (Sample.numbers batches.flatten).getLast? := by
  rw [ht.covers.accounts.last_eq, Sample.numbers_flatten]

/-- A stretch received last ends right before the next sample. -/
theorem Tracks.next_concat {first last : Nat} (ht : c.Tracks length (batches ++ [past.extract first last]))
    (hnum : Numbered past) (hsome : first < last) (hend : last ≤ past.length) : c.report.next = last := by
  have hlast : c.report.last = some (first + (last - first) - 1) := by
    rw [ht.last_eq, hnum.numbers_concat batches hend, List.getLast?_append, List.getLast?_range', if_neg (by omega)]
    rfl
  simp only [Report.next, hlast]
  omega

/-- A consumer that receives nothing more has the next sample still to come. -/
theorem Tracks.next_concat_nil (ht : c.Tracks length batches) (ht' : c'.Tracks length (batches ++ [[]])) :
    c'.report.next = c.report.next := by
  have hlast : c'.report.last = c.report.last := by
    rw [ht'.last_eq, ht.last_eq, List.flatten_append, List.flatten_singleton, List.append_nil]
  simp only [Report.next, hlast]

/-- As long as the cursor is zero nothing was received. -/
theorem InStep.numbers_of_zero (hs : c.InStep capacity length batches) (hzero : c.cursor = 0) :
    Sample.numbers batches.flatten = [] := by
  have hlast := Report.last_of_next (hs.cursor_eq.symm.trans hzero)
  rw [hs.tracks.last_eq, if_pos rfl] at hlast
  exact List.getLast?_eq_none_iff.mp hlast

/-- The cursor of an answer is right behind the last sample received. -/
theorem InStep.answer_cursor (hs : c.InStep capacity past.length batches) (hnum : Numbered past) (hpos : 0 < capacity)
    (ht' : c'.Tracks past.length (batches ++ [(c.answer past (min past.length capacity)).batch])) :
    (c.answer past (min past.length capacity)).cursor = c'.report.next := by
  have hheld : min past.length capacity ≤ past.length := Nat.min_le_left _ _
  by_cases hempty : (c.answer past (min past.length capacity)).batch = []
  · rw [hempty] at ht'
    rw [hs.tracks.next_concat_nil ht', ← hs.cursor_eq]
    exact Request.answer_cursor_of_empty hpos hs.fits.amount_ne hs.tracks.cursor_le hempty
  · obtain ⟨hlength, hend⟩ := Request.answer_cursor_of_batch hheld hempty
    have hsome := List.length_pos_iff.mpr hempty
    have hbatch : (c.answer past (min past.length capacity)).batch = _ := Request.answer_batch hheld
    unfold answer at ht' hbatch hsome ⊢
    rw [hbatch] at ht'
    exact (ht'.next_concat hnum (by omega) hend).symm

/-- What is read in order from a history with a slot for each sample goes on without a jump. -/
theorem InStep.answer_unbroken (hs : c.InStep capacity past.length batches) (hnum : Numbered past)
    (hmode : c.settings.mode = .continuous) (hroom : past.length ≤ capacity) :
    ∃ first, first ≤ (c.answer past (min past.length capacity)).cursor ∧
      Sample.numbers (batches ++ [(c.answer past (min past.length capacity)).batch]).flatten =
        List.range' first ((c.answer past (min past.length capacity)).cursor - first) := by
  have hheld : min past.length capacity ≤ past.length := Nat.min_le_left _ _
  have hbatch : (c.answer past (min past.length capacity)).batch = _ := Request.answer_batch hheld
  obtain ⟨hfirst, hlast, hend⟩ := Request.answer_cursor (q := c.settings.request) hheld hs.tracks.cursor_le
  rw [hbatch, hnum.numbers_concat batches hend]
  -- the first batch may begin anywhere; later ones begin at the cursor, since every sample from there on is held
  by_cases hzero : c.cursor = 0
  · rw [hs.numbers_of_zero hzero]
    exact ⟨_, hlast, rfl⟩
  · obtain ⟨first, hle, hnumbers⟩ := hs.unbroken hmode hroom
    have hkept : (c.answer past (min past.length capacity)).first = c.cursor :=
      Request.answer_first_of_held hmode hs.fits.amount_ne hheld (by omega) hs.tracks.cursor_le (by omega)
    have hmove : c.cursor ≤ (c.answer past (min past.length capacity)).cursor := Nat.le_trans hfirst hlast
    refine ⟨first, Nat.le_trans hle hmove, ?_⟩
    unfold answer at hkept hmove ⊢
    rw [hnumbers, hkept, range'_append_of_le hle hmove]

/-- A poll keeps a consumer in step. -/
theorem InStep.poll (hs : c.InStep capacity past.length batches) (hi : Intact h capacity past) :
    ∃ polled, c.poll h = .ok polled ∧ polled.batch = (c.answer past (min past.length capacity)).batch ∧
      polled.consumer.cursor = (c.answer past (min past.length capacity)).cursor ∧
      polled.consumer.settings = c.settings ∧
      polled.consumer.InStep capacity past.length (batches ++ [polled.batch]) := by
  have hheld : min past.length capacity ≤ past.length := Nat.min_le_left _ _
  obtain ⟨polled, hpoll, hbatch, hcursor, hsettings, htracks⟩ := hs.tracks.poll hi.records hi.few hi.numbered
  rw [hi.size_eq] at hbatch hcursor
  refine ⟨polled, hpoll, hbatch, hcursor, hsettings, ?_⟩
  rw [hbatch] at htracks ⊢
  constructor
  case fits =>
    rw [hsettings]
    exact hs.fits
  case tracks => exact htracks
  case cursor_eq => rw [hcursor, hs.answer_cursor hi.numbered hi.capacity_pos htracks]
  case full =>
    rw [hsettings]
    intro hexact batch hmem hsome
    rcases List.mem_append.mp hmem with hmem | hmem
    · exact hs.full hexact batch hmem hsome
    · obtain rfl := List.mem_singleton.mp hmem
      exact Request.length_answer_of_exact hexact hs.fits.amount_ne hheld hi.few hsome
  case unbroken =>
    rw [hsettings, hcursor]
    exact hs.answer_unbroken hi.numbered

/-- What a poll that succeeded has brought. -/
theorem InStep.of_poll (hs : c.InStep capacity past.length batches) (hi : Intact h capacity past) {polled : Polled}
    (hpoll : c.poll h = .ok polled) :
    polled.batch = (c.answer past (min past.length capacity)).batch ∧
      polled.consumer.cursor = (c.answer past (min past.length capacity)).cursor ∧
      polled.consumer.settings = c.settings ∧
      polled.consumer.InStep capacity past.length (batches ++ [polled.batch]) := by
  obtain ⟨polled', hpoll', hbrought⟩ := hs.poll hi
  obtain rfl := Except.ok.inj (hpoll.symm.trans hpoll')
  exact hbrought

/-! ## The last poll -/

/-- A consumer that has received the newest sample, or waits for a full batch with fewer samples left than that. -/
structure CaughtUp (c : Consumer) (length : Nat) : Prop where
  of_inexact : c.settings.exact = false → c.cursor = length
  of_exact : c.settings.exact = true → length < c.cursor + c.settings.amount.toNat

/-- A consumer that a poll brings nothing has caught up. -/
theorem InStep.caughtUp (hs : c.InStep capacity past.length batches) (hi : Intact h capacity past) {polled : Polled}
    (hpoll : c.poll h = .ok polled) (hempty : polled.batch = []) : polled.consumer.CaughtUp past.length := by
  obtain ⟨hbatch, hcursor, hsettings, -⟩ := hs.of_poll hi hpoll
  rw [hempty, eq_comm] at hbatch
  constructor
  case of_inexact =>
    rw [hsettings, hcursor]
    intro hinexact
    exact Request.answer_empty_of_inexact hinexact hs.fits.amount_ne (Nat.min_le_left _ _) hbatch
  case of_exact =>
    rw [hsettings, hcursor]
    intro hexact
    have hstay : (c.answer past (min past.length capacity)).cursor = c.cursor :=
      Request.answer_cursor_of_empty hi.capacity_pos hs.fits.amount_ne hs.tracks.cursor_le hbatch
    have hleft : past.length - c.cursor < c.settings.amount.toNat :=
      Request.answer_empty_of_exact hexact hs.fits.amount_ne (hs.fits.exact_le hexact) hi.few hs.tracks.cursor_le hbatch
    omega

/-- A drain keeps a consumer in step until it has caught up. -/
theorem InStep.drains (hs : c.InStep capacity past.length batches) (hi : Intact h capacity past)
    (hdrains : Drains h c given c') :
    c'.settings = c.settings ∧ c'.InStep capacity past.length (batches ++ given ++ [[]]) ∧ c'.CaughtUp past.length := by
  induction hdrains generalizing batches with
  | stop hpoll hempty =>
    have hcaught := hs.caughtUp hi hpoll hempty
    obtain ⟨-, -, hsettings, hs'⟩ := hs.of_poll hi hpoll
    rw [hempty] at hs'
    exact ⟨hsettings, by rwa [List.append_nil], hcaught⟩
  | more hpoll hsome hrest ih =>
    obtain ⟨-, -, hsettings, hs'⟩ := hs.of_poll hi hpoll
    obtain ⟨hsettings', hs'', hcaught⟩ := ih hs'
    exact ⟨hsettings'.trans hsettings, by rwa [← List.append_cons] at hs'', hcaught⟩

end Consumer

end Lookback
