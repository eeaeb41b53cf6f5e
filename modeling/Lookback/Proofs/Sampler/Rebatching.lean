import Lookback.Proofs.Sampler.Draining

/-!
# The same samples in other batches

What a report counts of samples does not depend on how they came in batches, and batches that are empty leave no trace: batches of the
same samples differ in their number alone (`Report.foldl_tallyBatch_of_flatten`). So two consumers that drain a history with a
different amount each end with the same report, but for the number of polls that brought something: both were given all samples
unread at the start, in order, and both stand at the end of the past (`Consumer.exists_drain_continuous`).
-/

namespace Lookback

open History
open Audience (blank)

namespace Report

variable {r : Report} {batches batches' : List (List Nat)}

/-- Other batches of the same numbers count the same, but for the number of batches. -/
theorem foldl_tallyBatch_of_flatten (r : Report) (hsame : batches'.flatten = batches.flatten) :
    batches'.foldl tallyBatch r =
      { batches.foldl tallyBatch r with batches := r.batches + batches'.countP fun batch => !batch.isEmpty } := by
  rw [foldl_tallyBatch, foldl_tallyBatch r batches, hsame]

/-- Where the counts of some batches fit, those of other batches of the same numbers do if their number fits. -/
theorem fits_of_flatten (hsame : batches'.flatten = batches.flatten) (hfits : (batches.foldl tallyBatch r).Fits) :
    (batches'.foldl tallyBatch r).Fits ↔ r.batches + (batches'.countP fun batch => !batch.isEmpty) ≤ lastWord := by
  rw [foldl_tallyBatch_of_flatten r hsame]
  exact ⟨Fits.batches_le, fun hnumber => { hfits with batches_le := hnumber }⟩

/-- One batch of all numbers counts as no more than the batches they came in. -/
theorem countP_flatten_le (batches : List (List Nat)) :
    ([batches.flatten].countP fun batch => !batch.isEmpty) ≤ batches.countP fun batch => !batch.isEmpty := by
  by_cases hnone : batches.flatten = []
  · rw [hnone]
    exact Nat.zero_le _
  · obtain ⟨n, hn⟩ := List.exists_mem_of_ne_nil _ hnone
    obtain ⟨batch, hbatch, hn⟩ := List.mem_flatten.mp hn
    have hsome : 0 < batches.countP fun batch => !batch.isEmpty :=
      List.countP_pos_iff.mpr ⟨batch, hbatch, by simpa using List.ne_nil_of_mem hn⟩
    exact Nat.le_trans List.countP_le_length hsome

/-- Accounting for batches one after the other succeeds where accounting for all their numbers at once does and the number of batches
fits, and brings the same counts. -/
theorem recordAll_eq_ok_iff_record {r' : Report} (hwords : ∀ batch ∈ batches, ∀ n ∈ batch, n ≤ lastWord) (hr : r.Fits) :
    r.recordAll batches = .ok r' ↔
      ∃ r'', r.record batches.flatten = .ok r'' ∧ r.batches + (batches.countP fun batch => !batch.isEmpty) ≤ lastWord ∧
        r' = { r'' with batches := r.batches + batches.countP fun batch => !batch.isEmpty } := by
  have hall : ∀ n ∈ batches.flatten, n ≤ lastWord := List.forall_mem_flatten.mpr hwords
  have hone : [batches.flatten].flatten = batches.flatten := List.flatten_singleton
  rw [recordAll_eq_ok_iff hwords hr]
  constructor
  · rintro ⟨hfits, rfl⟩
    have hnumber : r.batches + (batches.countP fun batch => !batch.isEmpty) ≤ lastWord := by
      rw [foldl_tallyBatch] at hfits
      exact hfits.batches_le
    have htogether : (r.tallyBatch batches.flatten).Fits :=
      (fits_of_flatten hone hfits).mpr (Nat.le_trans (Nat.add_le_add_left (countP_flatten_le batches) _) hnumber)
    exact ⟨_, record_eq_ok hall htogether, hnumber, foldl_tallyBatch_of_flatten r hone.symm⟩
  · rintro ⟨r'', hrecord, hnumber, rfl⟩
    obtain ⟨htogether, rfl⟩ := (record_eq_ok_iff hall hr).mp hrecord
    exact ⟨(fits_of_flatten hone.symm htogether).mpr hnumber, (foldl_tallyBatch_of_flatten r hone.symm).symm⟩

end Report

/-- Samples and their numbers make the same batches. -/
theorem Sample.countP_numbers (batches : List (List Sample)) :
    ((batches.map numbers).countP fun batch => !batch.isEmpty) = batches.countP fun batch => !batch.isEmpty := by
  simp [List.countP_map, Function.comp_def, numbers]

/-! ## Draining with another amount -/

namespace History

variable {α : Type} {h : History α} {q : Request} {past : List α} {recent cursor last : Nat} {batches : List (List α)}

/-- Only reads that bring something make batches. -/
theorem Fetches.countP_eq (hf : Fetches h q cursor batches last) :
    (batches.countP fun batch => !batch.isEmpty) = batches.length := by
  induction hf with
  | stop _ => rfl
  | more read_eq some rest ih =>
    rw [List.countP_cons, ih, List.length_cons, if_pos (by simpa using some)]

/-- A reader that takes any batch ends at the end of the past. -/
theorem Fetches.last_of_inexact (hf : Fetches h q cursor batches last) (hrec : h.ring.Records 0 past recent)
    (hlength : past.length ≤ lastWord) (hexact : q.exact = false) (hamount : q.amount ≠ 0) (hcursor : cursor ≤ lastWord) :
    last = past.length := by
  have hheld : h.size ≤ past.length := hrec.live_le_length
  induction hf with
  | @stop cursor last read_eq =>
    have hread := hrec.read_eq_answer (cursor_eq_length hrec hlength) q hcursor
    have hanswer : q.answer past h.size cursor = ⟨[], last⟩ := Except.ok.inj (hread.symm.trans read_eq)
    have hend := Request.answer_empty_of_inexact hexact hamount hheld (congrArg Reading.batch hanswer)
    rwa [hanswer] at hend
  | @more cursor next last batch later read_eq some rest ih =>
    have hread := hrec.read_eq_answer (cursor_eq_length hrec hlength) q hcursor
    have hanswer : q.answer past h.size cursor = ⟨batch, next⟩ := Except.ok.inj (hread.symm.trans read_eq)
    have hle : (q.answer past h.size cursor).cursor ≤ max cursor past.length := Request.answer_cursor_le_max hheld
    rw [hanswer] at hle
    exact ih (Nat.le_trans hle (Nat.max_le.mpr ⟨hcursor, hlength⟩))

end History

namespace Consumer

variable {h : History Sample} {c : Consumer} {past : List Sample} {recent cursor last : Nat} {batches : List (List Sample)}
  {drained : Drained}

/-- A drain succeeds where the exact counts of what is fetched fit, and brings just these. -/
theorem drain_eq_ok_iff (hf : Fetches h c.settings.request c.cursor batches last) (hbound : batches.length < h.size + 1)
    (hr : c.report.Fits) :
    c.drain h = .ok drained ↔ (c.after batches last).report.Fits ∧ drained = ⟨batches, c.after batches last⟩ := by
  by_cases hfits : (c.after batches last).report.Fits
  · rw [drain, (drainWithin_eq_ok hf rfl rfl hbound hfits).1, Except.ok.injEq, eq_comm]
    exact ⟨fun heq => ⟨hfits, heq⟩, And.right⟩
  · obtain ⟨e, hdrain, -⟩ := drainWithin_eq_error hf rfl rfl hbound hr hfits
    rw [drain, hdrain]
    constructor
    · intro hdrained
      cases hdrained
    · intro hdrained
      exact absurd hdrained.1 hfits

/-- Settings of a consumer that works off a backlog in whatever batches it comes. -/
structure TakesAny (s : ConsumerSettings) : Prop where
  mode_eq : s.mode = .continuous
  exact_eq : s.exact = false
  amount_ne : s.amount ≠ 0

theorem TakesAny.amount_toNat_ne {s : ConsumerSettings} (hs : TakesAny s) : s.amount.toNat ≠ 0 :=
  fun hzero => hs.amount_ne (UInt64.toNat_inj.mp hzero)

/-- What such a consumer drains, if its cursor marks a past insertion: all samples unread, in as many batches as the amount makes of
them, up to the end of the past. -/
theorem exists_drain_continuous (hrec : h.ring.Records 0 past recent) (hlength : past.length ≤ lastWord)
    (hs : TakesAny c.settings) (hpos : 0 < c.cursor) (hcursor : c.cursor ≤ past.length) (hr : c.report.Fits) :
    ∃ batches, (batches.countP fun batch => !batch.isEmpty) =
        (unreadValues past.length h.size c.cursor + c.settings.amount.toNat - 1) / c.settings.amount.toNat ∧
      batches.flatten = past.drop (past.length - unreadValues past.length h.size c.cursor) ∧
      ∀ drained, c.drain h = .ok drained ↔
        (c.after batches past.length).report.Fits ∧ drained = ⟨batches, c.after batches past.length⟩ := by
  have hword := Nat.le_trans hcursor hlength
  have hamount : c.settings.request.amount ≠ 0 := hs.amount_toNat_ne
  obtain ⟨batches, last, hfetches, hfetched⟩ :=
    exists_fetched_continuous (q := c.settings.request) hrec hlength hamount hs.mode_eq hpos hcursor
  obtain ⟨hcount, hflatten⟩ := hfetched.any_batches hamount hs.mode_eq hpos hcursor hs.exact_eq
  obtain rfl := hfetches.last_of_inexact hrec hlength hs.exact_eq hamount hword
  have hopen := openValues_le_live past.length h.size c.settings.request.amount c.cursor
  have hbound : batches.length < h.size + 1 :=
    Nat.lt_succ_of_le (Nat.le_trans (hfetches.length_le hrec hlength hword) hopen)
  exact ⟨batches, hfetches.countP_eq.trans hcount, hflatten, fun drained => drain_eq_ok_iff hfetches hbound hr⟩

/-- Two such consumers of one cursor and report, of which one drains a history: the other one does if the number of its batches fits,
and then was given the same samples, stands at the same place and shows the same report, but for that number. -/
theorem drain_of_other_amount {r : Report} {s s' : ConsumerSettings} (hrec : h.ring.Records 0 past recent)
    (hlength : past.length ≤ lastWord) (hs : TakesAny s) (hs' : TakesAny s') (hpos : 0 < cursor) (hcursor : cursor ≤ past.length)
    (hr : r.Fits) (hdrain : drain ⟨s, cursor, r⟩ h = .ok drained) :
    ((∃ drained', drain ⟨s', cursor, r⟩ h = .ok drained') ↔
        r.batches + (unreadValues past.length h.size cursor + s'.amount.toNat - 1) / s'.amount.toNat ≤ lastWord) ∧
      ∀ drained', drain ⟨s', cursor, r⟩ h = .ok drained' →
        drained'.batches.flatten = drained.batches.flatten ∧ drained'.consumer.cursor = drained.consumer.cursor ∧
          drained'.consumer.report = { drained.consumer.report with
            batches := r.batches + (unreadValues past.length h.size cursor + s'.amount.toNat - 1) / s'.amount.toNat } := by
  obtain ⟨batches, -, hflatten, hiff⟩ := exists_drain_continuous (c := ⟨s, cursor, r⟩) hrec hlength hs hpos hcursor hr
  obtain ⟨batches', hcount', hflatten', hiff'⟩ :=
    exists_drain_continuous (c := ⟨s', cursor, r⟩) hrec hlength hs' hpos hcursor hr
  have hsame : batches'.flatten = batches.flatten := hflatten'.trans hflatten.symm
  have hnumbers : (batches'.map Sample.numbers).flatten = (batches.map Sample.numbers).flatten := by
    rw [← Sample.numbers_flatten, ← Sample.numbers_flatten, hsame]
  obtain ⟨hfits, rfl⟩ := (hiff drained).mp hdrain
  have hfits' := Report.fits_of_flatten hnumbers hfits
  have hreport := Report.foldl_tallyBatch_of_flatten r hnumbers
  simp only [Sample.countP_numbers, hcount'] at hfits' hreport
  refine ⟨?_, ?_⟩
  · rw [← hfits']
    exact ⟨fun ⟨_, hdrain'⟩ => ((hiff' _).mp hdrain').1, fun hfits' => ⟨_, (hiff' _).mpr ⟨hfits', rfl⟩⟩⟩
  · intro drained' hdrain'
    obtain ⟨-, rfl⟩ := (hiff' drained').mp hdrain'
    exact ⟨hsame, rfl, hreport⟩

/-- Whatever a report counted so far. Accounting for batches one after the other brings the counts of all their samples at once, and
the number of those that are not empty. And whatever edits were made of a new history, fewer than `2 ^ 64` insertions in all: two
consumers of one cursor that marks a past insertion, both continuous and of any batches, drain it to the same report but for the
number of batches, which is what the amount makes of the samples unread. -/
theorem batching_leaves_counts {r : Report} (hr : r.Fits) :
    (∀ (batches : List (List Sample)) (r' : Report), r.recordAll (batches.map Sample.numbers) = .ok r' ↔
      ∃ r'', r.record (Sample.numbers batches.flatten) = .ok r'' ∧
        r.batches + (batches.countP fun batch => !batch.isEmpty) ≤ lastWord ∧
        r' = { r'' with batches := r.batches + batches.countP fun batch => !batch.isEmpty }) ∧
    ∀ (capacity : Nat) (es : List (Edit Sample)), 0 < capacity → capacity ≤ lastWord → (Edit.inserted es).length ≤ lastWord →
      ∃ h, (empty capacity).edits es = .ok h ∧
        ∀ (s s' : ConsumerSettings) (cursor : Nat), TakesAny s → TakesAny s' → 0 < cursor → cursor ≤ h.cursor →
          ∃ w, h.unread cursor = .ok w ∧
            ∀ drained, drain ⟨s, cursor, r⟩ h = .ok drained →
              ((∃ drained', drain ⟨s', cursor, r⟩ h = .ok drained') ↔
                r.batches + (w + s'.amount.toNat - 1) / s'.amount.toNat ≤ lastWord) ∧
              ∀ drained', drain ⟨s', cursor, r⟩ h = .ok drained' →
                drained'.batches.flatten = drained.batches.flatten ∧ drained'.consumer.cursor = drained.consumer.cursor ∧
                  drained'.consumer.report = { drained.consumer.report with
                    batches := r.batches + (w + s'.amount.toNat - 1) / s'.amount.toNat } := by
  constructor
  · intro batches r'
    have hwords : ∀ batch ∈ batches.map Sample.numbers, ∀ n ∈ batch, n ≤ lastWord := by
      intro numbers hnumbers
      obtain ⟨batch, -, rfl⟩ := List.mem_map.mp hnumbers
      exact Sample.numbers_le batch
    rw [Report.recordAll_eq_ok_iff_record hwords hr, Sample.numbers_flatten]
    simp only [Sample.countP_numbers]
  · intro capacity es hpos hfit hfew
    obtain ⟨h, hedits, -, hrec⟩ := edits_empty hpos hfit es
    have hend := cursor_eq_length hrec hfew
    refine ⟨h, hedits, ?_⟩
    intro s s' cursor hs hs' hmarks hcursor
    rw [hend] at hcursor
    exact ⟨_, unread_eq_unreadValues hrec hfew (Nat.le_trans hcursor hfew),
      fun drained hdrain => drain_of_other_amount hrec hfew hs hs' hmarks hcursor hr hdrain⟩

/-- Four samples are unread, one of them received again and one after a later one. A consumer of single samples takes four batches of
them, one of triples two, and otherwise the reports are the same. -/
theorem batching_leaves_counts_of_singles_and_triples :
    (⟨"all", 1, 1, 0, 0, 0, some 0, some 0⟩ : Report).Fits ∧
      ∃ h drained drained', (empty 4).edits [.insertMany [blank 0, blank 2, blank 2, blank 7, blank 5]] = .ok h ∧
        h.unread 1 = .ok 4 ∧
        drain ⟨⟨"all", 1, .continuous, false, 1⟩, 1, ⟨"all", 1, 1, 0, 0, 0, some 0, some 0⟩⟩ h = .ok drained ∧
        drain ⟨⟨"all", 3, .continuous, false, 1⟩, 1, ⟨"all", 1, 1, 0, 0, 0, some 0, some 0⟩⟩ h = .ok drained' ∧
        drained.batches.length = 4 ∧ drained.consumer.report = ⟨"all", 5, 5, 2, 5, 2, some 0, some 5⟩ ∧
        drained'.batches.flatten = drained.batches.flatten ∧
        drained'.consumer.report = { drained.consumer.report with batches := 1 + (4 + 3 - 1) / 3 } := by
  have hr : (⟨"all", 1, 1, 0, 0, 0, some 0, some 0⟩ : Report).Fits := ⟨by decide, by decide, by decide, by decide, by decide⟩
  obtain ⟨h, hedits, hdrains⟩ := (batching_leaves_counts hr).2 4 [.insertMany [blank 0, blank 2, blank 2, blank 7, blank 5]]
    (by decide) (by decide) (by decide)
  have hnew : (empty 4).edits [.insertMany [blank 0, blank 2, blank 2, blank 7, blank 5]] =
      .ok ⟨⟨#[blank 5, blank 2, blank 2, blank 7], 4, 1, 4, 5⟩⟩ := by cbv
  obtain rfl := Except.ok.inj (hedits.symm.trans hnew)
  have hunread : (⟨⟨#[blank 5, blank 2, blank 2, blank 7], 4, 1, 4, 5⟩⟩ : History Sample).unread 1 = .ok 4 := by cbv
  have hdrain : drain ⟨⟨"all", 1, .continuous, false, 1⟩, 1, ⟨"all", 1, 1, 0, 0, 0, some 0, some 0⟩⟩
      ⟨⟨#[blank 5, blank 2, blank 2, blank 7], 4, 1, 4, 5⟩⟩ =
      .ok ⟨[[blank 2], [blank 2], [blank 7], [blank 5]],
        ⟨⟨"all", 1, .continuous, false, 1⟩, 5, ⟨"all", 5, 5, 2, 5, 2, some 0, some 5⟩⟩⟩ := by cbv
  obtain ⟨w, hw, hother⟩ := hdrains ⟨"all", 1, .continuous, false, 1⟩ ⟨"all", 3, .continuous, false, 1⟩ 1
    ⟨rfl, rfl, by decide⟩ ⟨rfl, rfl, by decide⟩ (by decide) (by decide)
  obtain rfl := Except.ok.inj (hw.symm.trans hunread)
  obtain ⟨hiff, hsame⟩ := hother _ hdrain
  obtain ⟨drained', hdrain'⟩ := hiff.mpr (by decide)
  obtain ⟨hflatten, -, hreport⟩ := hsame drained' hdrain'
  exact ⟨hr, _, _, drained', hedits, hw, hdrain, hdrain', rfl, rfl, hflatten, hreport⟩

end Consumer

end Lookback
