import Lookback.Proofs.History.Batches
import Lookback.Proofs.Sampler.Draining
import Lookback.Proofs.Sampler.Totals

/-!
# Where accounting for samples stops

The cursor of a consumer moves before the batch is accounted for, so it matters where accounting can stop halfway. Comparing a number
with the one before it never does: a sum or difference is only formed where it is a word. Of the counts only the numbers skipped can
outgrow theirs while fewer than `2 ^ 64` samples are received, and they do where the jumps add up to more than that (`passedOver`).

Then the poll is cut short at the jump that is too much. The cursor is behind the batch by then, the samples before the jump are
counted one by one and its gap is, but neither the batch nor any sample of it counts as received (`Consumer.CutShort`). No poll of a
history fails in any other way (`Consumer.polls_stop_only_at_jumps`).
-/

namespace Lookback

open Audience (blank)

namespace Report

variable {r : Report} {numbers batch : List Nat} {n : Nat}

/-- The report where accounting stopped: at a jump, after the numbers before it. -/
def stoppedAfter (r : Report) (before : List Nat) : Report :=
  { before.foldl tally r with gaps := (before.foldl tally r).gaps + 1 }

/-- Where accounting stopped, neither the batch nor any sample of it is counted as received. -/
theorem stoppedAfter_kept (r : Report) (before : List Nat) :
    (r.stoppedAfter before).received = r.received ∧ (r.stoppedAfter before).batches = r.batches :=
  (foldl_tally_kept r before).2

/-- A jump whose length is too much is counted as a gap, and accounting stops. -/
theorem note_eq_error_of_jump (hword : n ≤ lastWord) (hskipped : r.skipped ≤ lastWord) (hgaps : (r.tally n).gaps ≤ lastWord)
    (hover : lastWord < (r.tally n).skipped) : r.note n = .error ⟨r.stoppedAfter [], .overflow .add⟩ := by
  obtain ⟨name, received, batches, gaps, skipped, duplicates, first, last⟩ := r
  cases last with
  | none => exact absurd hover (Nat.not_lt_of_le hskipped)
  | some last =>
    simp only [tally, jumped, passed, Option.elim_some] at hgaps hover
    have hjump : last + 1 < n := by
      simp only at hskipped
      omega
    have hback : ¬n ≤ last := by omega
    have hfollowing : Width.w64.add last 1 = .ok (last + 1) := Width.add_eq_ok (Nat.le_trans (by omega) hword)
    rw [if_pos hjump] at hgaps
    simp only [note, compare, if_neg hback, hfollowing, if_pos hjump, addGap, Width.add_eq_ok hgaps,
      subtract_eq_ok (show last ≤ n by omega), subtract_eq_ok (show 1 ≤ n - last by omega), Width.add_eq_error hover,
      Interrupted.guard_ok, Interrupted.guard_error, ok_bind, error_bind]
    rfl

/-- Where the numbers skipped come to too much, but no other count does, accounting stops at the first jump that makes it so. -/
theorem noteAll_eq_error_of_jump (hwords : ∀ n ∈ numbers, n ≤ lastWord) (hskipped : r.skipped ≤ lastWord)
    (hgaps : (numbers.foldl tally r).gaps ≤ lastWord) (hduplicates : (numbers.foldl tally r).duplicates ≤ lastWord)
    (hover : lastWord < (numbers.foldl tally r).skipped) :
    ∃ before n, before ++ [n] <+: numbers ∧ (before.foldl tally r).skipped ≤ lastWord ∧
      lastWord < ((before ++ [n]).foldl tally r).skipped ∧
      r.noteAll numbers = .error ⟨r.stoppedAfter before, .overflow .add⟩ := by
  induction numbers generalizing r with
  | nil => exact absurd hover (Nat.not_lt_of_le hskipped)
  | cons n rest ih =>
    have hword := hwords n List.mem_cons_self
    have hwithin := within_foldl_tally (r.tally n) rest
    have hgap := Nat.le_trans hwithin.gaps_le hgaps
    by_cases hroom : (r.tally n).skipped ≤ lastWord
    · obtain ⟨before, m, hbegin, hbefore, hjump, hnotes⟩ :=
        ih (fun k hk => hwords k (List.mem_cons_of_mem _ hk)) hroom hgaps hduplicates hover
      refine ⟨n :: before, m, (List.prefix_cons_inj n).mpr hbegin, hbefore, hjump, ?_⟩
      rw [noteAll, note_eq_ok hword hgap hroom (Nat.le_trans hwithin.duplicates_le hduplicates), ok_bind, hnotes]
      rfl
    · have hjump := Nat.lt_of_not_le hroom
      refine ⟨[], n, List.prefix_append [n] rest, hskipped, hjump, ?_⟩
      rw [noteAll, note_eq_error_of_jump hword hskipped hgap hjump, error_bind]

/-- The numbers skipped do not depend on where a batch ends. -/
theorem tallyBatch_skipped (r : Report) (batch : List Nat) : (r.tallyBatch batch).skipped = (batch.foldl tally r).skipped := by
  cases batch <;> rfl

theorem tallyBatch_received (r : Report) (batch : List Nat) : (r.tallyBatch batch).received = r.received + batch.length := by
  cases batch <;> rfl

/-- The samples of all batches are received. -/
theorem foldl_tallyBatch_received (name : String) (batches : List (List Sample)) :
    ((batches.map Sample.numbers).foldl tallyBatch (empty name)).received = batches.flatten.length := by
  rw [foldl_tallyBatch, ← Sample.numbers_flatten, Sample.length_numbers]
  exact Nat.zero_add _

/-- The numbers skipped after batches and some numbers more. -/
theorem foldl_tally_skipped_of_batches (name : String) (batches : List (List Sample)) (numbers : List Nat) :
    (numbers.foldl tally ((batches.map Sample.numbers).foldl tallyBatch (empty name))).skipped =
      passedOver (Sample.numbers batches.flatten ++ numbers) := by
  rw [foldl_tallyBatch, foldl_tally_counted, ← Sample.numbers_flatten, ← List.foldl_append]
  exact foldl_tally_skipped name _

/-- Accounting for a batch stops at the same jump, with nothing counted of the batch as a whole. -/
theorem record_eq_error_of_jump (hwords : ∀ n ∈ batch, n ≤ lastWord) (hskipped : r.skipped ≤ lastWord)
    (hrest : (r.tallyBatch batch).RestFits) (hover : lastWord < (r.tallyBatch batch).skipped) :
    ∃ before n, before ++ [n] <+: batch ∧ (before.foldl tally r).skipped ≤ lastWord ∧
      lastWord < ((before ++ [n]).foldl tally r).skipped ∧
      r.record batch = .error ⟨r.stoppedAfter before, .overflow .add⟩ := by
  have hwithin := foldl_tally_within_tallyBatch r batch
  rw [tallyBatch_skipped] at hover
  obtain ⟨before, n, hbegin, hbefore, hjump, hnotes⟩ := noteAll_eq_error_of_jump hwords hskipped
    (Nat.le_trans hwithin.gaps_le hrest.gaps_le) (Nat.le_trans hwithin.duplicates_le hrest.duplicates_le) hover
  have hfull : batch.isEmpty = false := by
    cases batch with
    | nil => exact absurd hover (Nat.not_lt_of_le hskipped)
    | cons m rest => rfl
  refine ⟨before, n, hbegin, hbefore, hjump, ?_⟩
  simp only [record, hfull, Bool.false_eq_true, if_false, hnotes, error_bind]

end Report

/-! ## Reads of one history after the other -/

namespace History

variable {α : Type} {h : History α} {q : Request} {cursor last : Nat} {batches : List (List α)}

/-- A history that edits lead to, however many values they insert, and wherever its counter began. -/
def Reached (h : History α) : Prop :=
  ∃ capacity start es, 0 < capacity ∧ capacity ≤ lastWord ∧ start ≤ lastWord ∧ (startingAt capacity start).edits es = .ok h

/-- The batches that a reader at `cursor` gets from histories, one read of each, and the cursor it is left with. -/
inductive Reads (q : Request) : List (History α) → Nat → List (List α) → Nat → Prop where
  | done (cursor : Nat) : Reads q [] cursor [] cursor
  | read {h : History α} {later : List (History α)} {cursor next last : Nat} {batch : List α} {batches : List (List α)}
      (read_eq : h.read q cursor = .ok ⟨batch, next⟩) (rest : Reads q later next batches last) :
      Reads q (h :: later) cursor (batch :: batches) last

/-- No read fails, and its cursor is a word. -/
theorem Reached.read (hreached : h.Reached) (q : Request) (hcursor : cursor ≤ lastWord) :
    ∃ batch next, h.read q cursor = .ok ⟨batch, next⟩ ∧ next ≤ lastWord := by
  obtain ⟨capacity, start, es, hpos, hfit, hstart, hedits⟩ := hreached
  obtain ⟨h', hedits', -, hrec⟩ := edits_eq_ok hpos hfit hstart es
  obtain rfl := Except.ok.inj (hedits.symm.trans hedits')
  obtain ⟨low, high, next, -, -, -, hread, hrefused, hgranted⟩ := hrec.read_stretch q hcursor
  refine ⟨_, next, hread, ?_⟩
  by_cases hshort : q.exact = true ∧ min (insertionsSince h.ring.written cursor) h.ring.live < q.amount
  · rw [(hrefused hshort).2]
    exact hcursor
  · rw [(hgranted hshort).1]
    exact Cyclic.mod_le_limit _ _

theorem exists_reads {histories : List (History α)} (hreached : ∀ h ∈ histories, h.Reached) (q : Request)
    (hcursor : cursor ≤ lastWord) : ∃ batches last, Reads q histories cursor batches last := by
  induction histories generalizing cursor with
  | nil => exact ⟨[], cursor, .done cursor⟩
  | cons h later ih =>
    obtain ⟨hfirst, hlater⟩ := List.forall_mem_cons.mp hreached
    obtain ⟨batch, next, hread, hnext⟩ := hfirst.read q hcursor
    obtain ⟨batches, last, hreads⟩ := ih hlater hnext
    exact ⟨batch :: batches, last, .read hread hreads⟩

/-- Reads may be taken apart at any of them. -/
theorem Reads.split {earlier later : List (History α)} (hf : Reads q (earlier ++ h :: later) cursor batches last) :
    ∃ given next batch next' rest, Reads q earlier cursor given next ∧ h.read q next = .ok ⟨batch, next'⟩ ∧
      Reads q later next' rest last ∧ batches = given ++ batch :: rest := by
  induction earlier generalizing cursor batches with
  | nil =>
    cases hf with
    | read read_eq rest => exact ⟨[], cursor, _, _, _, .done cursor, read_eq, rest, rfl⟩
  | cons first earlier ih =>
    cases hf with
    | read read_eq rest =>
      obtain ⟨given, next, batch, next', rest, hgiven, hread, hrest, heq⟩ := ih rest
      exact ⟨_ :: given, next, batch, next', rest, .read read_eq hgiven, hread, hrest, congrArg _ heq⟩

end History

/-! ## Polls of one history after the other -/

namespace Consumer

variable {c : Consumer} {q : Request} {histories : List (History Sample)} {cursor last : Nat} {batches : List (List Sample)}

/-- What polls bring: the batches, also those that are empty, and the consumer afterwards. -/
structure PolledAll where
  batches : List (List Sample)
  consumer : Consumer

/-- Polls histories, each of them once. -/
def pollAll (c : Consumer) : List (History Sample) → Except (Interrupted Consumer) PolledAll
  | [] => .ok ⟨[], c⟩
  | h :: later => do
    let polled ← c.poll h
    let rest ← polled.consumer.pollAll later
    .ok ⟨polled.batch :: rest.batches, rest.consumer⟩

/-- A poll that is cut short at a jump, among the polls of a consumer. -/
structure Stop where
  /-- The histories polled before. -/
  earlier : List (History Sample)
  /-- The batches they brought. -/
  given : List (List Sample)
  /-- The consumer at the time of the poll. -/
  consumer : Consumer
  /-- The history polled. -/
  history : History Sample
  /-- The batch read from it, and the cursor behind it. -/
  reading : Reading Sample
  /-- The numbers of this batch up to the jump. -/
  before : List Nat
  /-- The number at which the jump ends. -/
  jump : Nat

/-- What is left of the consumer: its cursor is behind the batch. -/
def Stop.interrupted (s : Stop) : Interrupted Consumer :=
  ⟨⟨s.consumer.settings, s.reading.cursor, s.consumer.report.stoppedAfter s.before⟩, .overflow .add⟩

/-- Polls of histories end at a jump: the polls before bring their batches and count them, and accounting for the batch of this one
does not come behind the jump. -/
structure CutShort (c : Consumer) (histories : List (History Sample)) (s : Stop) : Prop where
  begins : s.earlier ++ [s.history] <+: histories
  earlier_eq : c.pollAll s.earlier = .ok ⟨s.given, s.consumer⟩
  report_eq : s.consumer.report = (s.given.map Sample.numbers).foldl Report.tallyBatch c.report
  read_eq : s.history.read s.consumer.settings.request s.consumer.cursor = .ok s.reading
  numbers_eq : s.before ++ [s.jump] <+: Sample.numbers s.reading.batch
  poll_eq : s.consumer.poll s.history = .error s.interrupted
  polls_eq : c.pollAll histories = .error s.interrupted

/-- Where no count but that of the numbers skipped is too large, a poll is cut short at a jump. -/
theorem poll_eq_error_of_jump {h : History Sample} {reading : Reading Sample}
    (hread : h.read c.settings.request c.cursor = .ok reading) (hskipped : c.report.skipped ≤ lastWord)
    (hrest : (c.report.tallyBatch (Sample.numbers reading.batch)).RestFits)
    (hover : lastWord < (c.report.tallyBatch (Sample.numbers reading.batch)).skipped) :
    ∃ before n, before ++ [n] <+: Sample.numbers reading.batch ∧ (before.foldl Report.tally c.report).skipped ≤ lastWord ∧
      lastWord < ((before ++ [n]).foldl Report.tally c.report).skipped ∧
      c.poll h = .error ⟨⟨c.settings, reading.cursor, c.report.stoppedAfter before⟩, .overflow .add⟩ := by
  obtain ⟨before, n, hbegin, hbefore, hjump, hrecord⟩ :=
    Report.record_eq_error_of_jump (Sample.numbers_le reading.batch) hskipped hrest hover
  refine ⟨before, n, hbegin, hbefore, hjump, ?_⟩
  unfold Sample.numbers at hrecord
  unfold Consumer.poll
  rw [hread, Interrupted.guard_ok, ok_bind]
  simp only [hrecord]

/-- What is read polls bring, with the exact counts, if these fit. -/
theorem pollAll_eq_ok (hf : History.Reads q histories cursor batches last) (hq : c.settings.request = q) (hcursor : c.cursor = cursor)
    (hfits : (c.after batches last).report.Fits) : c.pollAll histories = .ok ⟨batches, c.after batches last⟩ := by
  induction hf generalizing c with
  | done cursor =>
    subst hcursor
    rfl
  | @read h later cursor next last batch batches read_eq rest ih =>
    subst hq hcursor
    have hwithin := Report.within_foldl_tallyBatch (c.report.tallyBatch (Sample.numbers batch)) (batches.map Sample.numbers)
    have hpoll := poll_eq_ok read_eq (.of_within hwithin hfits)
    have hpolls := ih (c := ⟨c.settings, next, c.report.tallyBatch (Sample.numbers batch)⟩) rfl rfl hfits
    rw [pollAll, hpoll, ok_bind, hpolls]
    rfl

/-- If the numbers skipped come to too much, one of the polls is cut short at a jump. -/
theorem pollAll_eq_error (hf : History.Reads q histories cursor batches last) (hq : c.settings.request = q)
    (hcursor : c.cursor = cursor) (hskipped : c.report.skipped ≤ lastWord) (hrest : (c.after batches last).report.RestFits)
    (hover : lastWord < (c.after batches last).report.skipped) :
    ∃ s, c.CutShort histories s ∧ (s.before.foldl Report.tally s.consumer.report).skipped ≤ lastWord ∧
      lastWord < ((s.before ++ [s.jump]).foldl Report.tally s.consumer.report).skipped := by
  induction hf generalizing c with
  | done cursor => exact absurd hover (Nat.not_lt_of_le hskipped)
  | @read h later cursor next last batch batches read_eq rest ih =>
    subst hq hcursor
    have hwithin := Report.within_foldl_tallyBatch (c.report.tallyBatch (Sample.numbers batch)) (batches.map Sample.numbers)
    have hbatch : (c.report.tallyBatch (Sample.numbers batch)).RestFits := .of_within hwithin hrest
    by_cases hroom : (c.report.tallyBatch (Sample.numbers batch)).skipped ≤ lastWord
    · have hpoll := poll_eq_ok read_eq (hbatch.fits hroom)
      obtain ⟨s, hs, hbefore, hjump⟩ :=
        ih (c := ⟨c.settings, next, c.report.tallyBatch (Sample.numbers batch)⟩) rfl rfl hroom hrest hover
      refine ⟨{ s with earlier := h :: s.earlier, given := batch :: s.given }, ?_, hbefore, hjump⟩
      constructor
      case begins => exact (List.prefix_cons_inj h).mpr hs.begins
      case earlier_eq => rw [pollAll, hpoll, ok_bind, hs.earlier_eq, ok_bind]
      case report_eq => exact hs.report_eq
      case read_eq => exact hs.read_eq
      case numbers_eq => exact hs.numbers_eq
      case poll_eq => exact hs.poll_eq
      case polls_eq =>
        rw [pollAll, hpoll, ok_bind, hs.polls_eq]
        rfl
    · obtain ⟨before, n, hbegin, hbefore, hjump, hpoll⟩ :=
        poll_eq_error_of_jump read_eq hskipped hbatch (Nat.lt_of_not_le hroom)
      refine ⟨⟨[], [], c, h, ⟨batch, next⟩, before, n⟩, ?_, hbefore, hjump⟩
      constructor
      case begins => exact List.prefix_append [h] later
      case earlier_eq => rfl
      case report_eq => rfl
      case read_eq => exact read_eq
      case numbers_eq => exact hbegin
      case poll_eq => exact hpoll
      case polls_eq =>
        rw [pollAll, hpoll]
        rfl

/-- Each of the polls that bring what is read reads its batch, moves the cursor behind it and counts its samples as received. -/
theorem poll_among {h : History Sample} {earlier later : List (History Sample)}
    (hf : History.Reads q (earlier ++ h :: later) cursor batches last) (hq : c.settings.request = q) (hcursor : c.cursor = cursor)
    (hfits : (c.after batches last).report.Fits) :
    ∃ given c' polled, c.pollAll earlier = .ok ⟨given, c'⟩ ∧ c'.poll h = .ok polled ∧
      h.read c'.settings.request c'.cursor = .ok ⟨polled.batch, polled.consumer.cursor⟩ ∧
      polled.consumer.report.received = c'.report.received + polled.batch.length := by
  subst hq hcursor
  obtain ⟨given, next, batch, next', rest, hgiven, hread, -, rfl⟩ := hf.split
  -- what was counted after this poll and before it is part of what is counted in the end
  have hwithin : ((c.after given next).report.tallyBatch (Sample.numbers batch)).Within
      (c.after (given ++ batch :: rest) last).report := by
    unfold after
    rw [List.map_append, List.foldl_append, List.map_cons, List.foldl_cons]
    exact Report.within_foldl_tallyBatch _ _
  have hpolled := Report.Fits.of_within hwithin hfits
  have hbefore := Report.Fits.of_within (Report.within_tallyBatch _ _) hpolled
  refine ⟨given, _, _, pollAll_eq_ok hgiven rfl rfl hbefore, poll_eq_ok hread hpolled, hread, ?_⟩
  rw [Report.tallyBatch_received, Sample.length_numbers]

/-- Whatever histories a new consumer polls, each of them once, and whatever their samples are numbered: every read brings a batch.
If these are fewer than `2 ^ 64` samples in all, everything depends on the numbers passed over. Where they fit into a word, every poll
brings its batch, moves the cursor behind it and counts its samples as received. Where they do not, the polls end at the first jump
that makes them too many: its poll has moved the cursor behind the batch, but no sample of the batch counts as received. -/
theorem polls_stop_only_at_jumps (settings : ConsumerSettings) (hreached : ∀ h ∈ histories, h.Reached) :
    ∃ batches last, History.Reads settings.request histories 0 batches last ∧
      (batches.flatten.length ≤ lastWord →
        (passedOver (Sample.numbers batches.flatten) ≤ lastWord →
          (∃ c, (create settings).pollAll histories = .ok ⟨batches, c⟩ ∧ c.cursor = last ∧
            c.report.received = batches.flatten.length ∧ c.report.skipped = passedOver (Sample.numbers batches.flatten)) ∧
          ∀ earlier h later, histories = earlier ++ h :: later →
            ∃ given c polled, (create settings).pollAll earlier = .ok ⟨given, c⟩ ∧ c.poll h = .ok polled ∧
              h.read c.settings.request c.cursor = .ok ⟨polled.batch, polled.consumer.cursor⟩ ∧
              polled.consumer.report.received = c.report.received + polled.batch.length) ∧
        (lastWord < passedOver (Sample.numbers batches.flatten) →
          ∃ s, (create settings).CutShort histories s ∧
            passedOver (Sample.numbers s.given.flatten ++ s.before) ≤ lastWord ∧
            lastWord < passedOver (Sample.numbers s.given.flatten ++ s.before ++ [s.jump]) ∧
            s.interrupted.state.report.received = s.given.flatten.length)) := by
  obtain ⟨batches, last, hreads⟩ := History.exists_reads hreached settings.request (Nat.zero_le lastWord)
  refine ⟨batches, last, hreads, ?_⟩
  intro hfew
  have hnumbers : (batches.map Sample.numbers).flatten.length ≤ lastWord := by
    rw [← Sample.numbers_flatten, Sample.length_numbers]
    exact hfew
  have hskipped := Report.foldl_tallyBatch_skipped settings.name (batches.map Sample.numbers)
  rw [← Sample.numbers_flatten] at hskipped
  constructor
  · intro hpassed
    have hfits : ((create settings).after batches last).report.Fits :=
      (Report.foldl_tallyBatch_restFits settings.name hnumbers).fits (hskipped ▸ hpassed)
    refine ⟨⟨_, pollAll_eq_ok hreads rfl rfl hfits, rfl, Report.foldl_tallyBatch_received _ _, hskipped⟩, ?_⟩
    rintro earlier h later rfl
    exact poll_among hreads rfl rfl hfits
  · intro hover
    obtain ⟨s, hs, hbefore, hjump⟩ := pollAll_eq_error (c := create settings) hreads rfl rfl (Nat.zero_le _)
      (Report.foldl_tallyBatch_restFits settings.name hnumbers) (hskipped ▸ hover)
    have hreport : s.consumer.report = (s.given.map Sample.numbers).foldl Report.tallyBatch (.empty settings.name) := hs.report_eq
    rw [hreport, Report.foldl_tally_skipped_of_batches] at hbefore hjump
    rw [← List.append_assoc] at hjump
    refine ⟨s, hs, hbefore, hjump, ?_⟩
    rw [Stop.interrupted, (Report.stoppedAfter_kept _ _).1, hreport, Report.foldl_tallyBatch_received]

/-- The first number and the last word, polled, and both again. The first poll is counted, and so is the first sample of the second
one; then the jump to the last word passes over more than the rest of a word, with the cursor behind it already. -/
theorem polls_stop_at_second_jump :
    ∃ h h', (∀ g ∈ [h, h'], g.Reached) ∧
      h.ring.slots = #[blank 0, blank 18446744073709551615] ∧ h'.ring.slots = #[blank 0, blank 18446744073709551615] ∧
      ∃ s, (create ⟨"all", 2, .continuous, false, 1⟩).CutShort [h, h'] s ∧ s.interrupted.failure = .overflow .add ∧
        passedOver (Sample.numbers s.given.flatten ++ s.before) ≤ lastWord ∧
        lastWord < passedOver (Sample.numbers s.given.flatten ++ s.before ++ [s.jump]) ∧
        s.interrupted.state.report.received = s.given.flatten.length := by
  have hfirst : (History.startingAt 2 0).edits [.insertMany [blank 0, blank 18446744073709551615]] =
      .ok ⟨⟨#[blank 0, blank 18446744073709551615], 2, 0, 2, 2⟩⟩ := by cbv
  have hagain : (History.startingAt 2 0).edits [.insertMany [blank 0, blank 18446744073709551615],
      .insertMany [blank 0, blank 18446744073709551615]] =
      .ok ⟨⟨#[blank 0, blank 18446744073709551615], 2, 0, 2, 4⟩⟩ := by cbv
  have hreached : ∀ g ∈ [(⟨⟨#[blank 0, blank 18446744073709551615], 2, 0, 2, 2⟩⟩ : History Sample),
      ⟨⟨#[blank 0, blank 18446744073709551615], 2, 0, 2, 4⟩⟩], g.Reached :=
    List.forall_mem_cons.mpr ⟨⟨2, 0, _, by decide, by decide, by decide, hfirst⟩,
      List.forall_mem_singleton.mpr ⟨2, 0, _, by decide, by decide, by decide, hagain⟩⟩
  obtain ⟨batches, last, hreads, hpolls⟩ := polls_stop_only_at_jumps ⟨"all", 2, .continuous, false, 1⟩ hreached
  have hpair : (⟨⟨#[blank 0, blank 18446744073709551615], 2, 0, 2, 2⟩⟩ : History Sample).read ⟨2, .continuous, false⟩ 0 =
      .ok ⟨[blank 0, blank 18446744073709551615], 2⟩ := by cbv
  have hpair' : (⟨⟨#[blank 0, blank 18446744073709551615], 2, 0, 2, 4⟩⟩ : History Sample).read ⟨2, .continuous, false⟩ 2 =
      .ok ⟨[blank 0, blank 18446744073709551615], 4⟩ := by cbv
  cases hreads with
  | read read_eq rest =>
    obtain ⟨rfl, rfl⟩ := Reading.mk.inj (Except.ok.inj (read_eq.symm.trans hpair))
    cases rest with
    | read read_eq rest =>
      obtain ⟨rfl, rfl⟩ := Reading.mk.inj (Except.ok.inj (read_eq.symm.trans hpair'))
      cases rest
      obtain ⟨s, hs, hbefore, hjump, hreceived⟩ := (hpolls (by decide)).2 (by decide)
      exact ⟨_, _, hreached, rfl, rfl, s, hs, rfl, hbefore, hjump, hreceived⟩

/-- Four samples, and a poll for all of them: it ends with nothing received, and the cursor behind them. -/
theorem poll_cut_short :
    ∃ h batch c, (History.empty 4).edits
        [.insertMany [blank 0, blank 18446744073709551615, blank 0, blank 18446744073709551615]] = .ok h ∧
      h.read ⟨4, .continuous, false⟩ 0 = .ok ⟨batch, 4⟩ ∧ batch.length = 4 ∧
      (create ⟨"all", 4, .continuous, false, 1⟩).poll h = .error ⟨c, .overflow .add⟩ ∧ c.cursor = 4 ∧ c.report.received = 0 := by
  have hnew : (History.empty 4).edits
      [.insertMany [blank 0, blank 18446744073709551615, blank 0, blank 18446744073709551615]] =
      .ok ⟨⟨#[blank 0, blank 18446744073709551615, blank 0, blank 18446744073709551615], 4, 0, 4, 4⟩⟩ := by cbv
  have hread : (⟨⟨#[blank 0, blank 18446744073709551615, blank 0, blank 18446744073709551615], 4, 0, 4, 4⟩⟩ :
      History Sample).read ⟨4, .continuous, false⟩ 0 =
      .ok ⟨[blank 0, blank 18446744073709551615, blank 0, blank 18446744073709551615], 4⟩ := by cbv
  have hpoll : (create ⟨"all", 4, .continuous, false, 1⟩).poll
      ⟨⟨#[blank 0, blank 18446744073709551615, blank 0, blank 18446744073709551615], 4, 0, 4, 4⟩⟩ =
      .error ⟨⟨⟨"all", 4, .continuous, false, 1⟩, 4, ⟨"all", 0, 0, 2, 18446744073709551614, 1, some 0, some 0⟩⟩,
        .overflow .add⟩ := by cbv
  exact ⟨_, _, _, hnew, hread, rfl, hpoll, rfl, rfl⟩

end Consumer

end Lookback
