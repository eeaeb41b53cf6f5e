import Lookback.Proofs.History.Fetching
import Lookback.Proofs.Sampler.Audience
import Lookback.Proofs.Sampler.Drains

/-!
# How many batches a drain takes

A drain fetches until nothing comes, whatever the samples are numbered, and what it fetches follows from the number of samples
unread at its start (`History.Fetched`). It ends there, with the exact counts in its report, as long as these fit into words
(`drainWithin_eq_ok`). Where they do not, a poll on the way is cut short and the drain with it (`drainWithin_eq_error`): the numbers
skipped are added up, and where numbers go back and jump ahead again their sum may be larger than any of them
(`drain_cut_short`).
-/

namespace Lookback

open History
open Audience (blank)

namespace Consumer

variable {h : History Sample} {c : Consumer} {q : Request} {past : List Sample} {recent cursor last bound : Nat}
  {batches : List (List Sample)}

/-- The consumer after batches that left a cursor, with the exact counts. -/
def after (c : Consumer) (batches : List (List Sample)) (last : Nat) : Consumer :=
  ⟨c.settings, last, (batches.map Sample.numbers).foldl Report.tallyBatch c.report⟩

/-- What is fetched a drain brings, if the exact counts fit. -/
theorem drainWithin_eq_ok (hf : Fetches h q cursor batches last) (hq : c.settings.request = q) (hcursor : c.cursor = cursor)
    (hbound : batches.length < bound) (hfits : (c.after batches last).report.Fits) :
    drainWithin h bound c = .ok ⟨batches, c.after batches last⟩ ∧ Drains h c batches (c.after batches last) := by
  induction hf generalizing c bound with
  | stop read_eq =>
    subst hq hcursor
    have hpoll := poll_eq_ok read_eq hfits
    cases bound with
    | zero => exact absurd hbound (Nat.not_lt_zero _)
    | succ bound =>
      exact ⟨drainWithin_of_empty hpoll rfl bound, .stop hpoll rfl⟩
  | @more cursor next last batch later read_eq some rest ih =>
    subst hq hcursor
    cases bound with
    | zero => exact absurd hbound (Nat.not_lt_zero _)
    | succ bound =>
      -- the counts only grow, so they fit after the first batch as well
      have hwithin := Report.within_foldl_tallyBatch (c.report.tallyBatch (Sample.numbers batch)) (later.map Sample.numbers)
      have hpoll := poll_eq_ok read_eq (.of_within hwithin hfits)
      obtain ⟨hdrain, hdrains⟩ :=
        ih (c := ⟨c.settings, next, c.report.tallyBatch (Sample.numbers batch)⟩) rfl rfl (Nat.lt_of_succ_lt_succ hbound) hfits
      refine ⟨?_, .more hpoll some hdrains⟩
      rw [drainWithin_of_some hpoll some, hdrain]
      rfl

/-- If they do not fit, one of the polls is cut short. -/
theorem drainWithin_eq_error (hf : Fetches h q cursor batches last) (hq : c.settings.request = q) (hcursor : c.cursor = cursor)
    (hbound : batches.length < bound) (hr : c.report.Fits) (hover : ¬(c.after batches last).report.Fits) :
    ∃ e, drainWithin h bound c = .error e ∧ e.failure = .overflow .add := by
  induction hf generalizing c bound with
  | stop read_eq => exact absurd hr hover
  | @more cursor next last batch later read_eq some rest ih =>
    subst hq hcursor
    cases bound with
    | zero => exact absurd hbound (Nat.not_lt_zero _)
    | succ bound =>
      by_cases hfits : (c.report.tallyBatch (Sample.numbers batch)).Fits
      · have hpoll := poll_eq_ok read_eq hfits
        obtain ⟨e, hdrain, hfailure⟩ :=
          ih (c := ⟨c.settings, next, c.report.tallyBatch (Sample.numbers batch)⟩) rfl rfl (Nat.lt_of_succ_lt_succ hbound)
            hfits hover
        refine ⟨e, ?_, hfailure⟩
        rw [drainWithin_of_some hpoll some, hdrain]
        rfl
      · obtain ⟨e, hpoll, hfailure⟩ := poll_eq_error read_eq hr hfits
        refine ⟨e, ?_, hfailure⟩
        simp only [drainWithin, hpoll, error_bind]

/-- Whatever edits were made of a new history, fewer than `2 ^ 64` insertions in all: a consumer of any settings and any cursor that
polls until a poll brings nothing takes as many batches as the number of samples unread at its start says (`Fetched`). Its drain
brings these, and the exact counts, if the counts fit into words; otherwise one of its polls is cut short by a sum that does not. -/
theorem drain_takes_unread {capacity : Nat} (hpos : 0 < capacity) (hfit : capacity ≤ lastWord) (es : List (Edit Sample))
    (hfew : (Edit.inserted es).length ≤ lastWord) :
    ∃ h, (empty capacity).edits es = .ok h ∧
      ∀ c : Consumer, c.cursor ≤ lastWord → c.report.Fits →
        ∃ w batches last, h.unread c.cursor = .ok w ∧ Fetches h c.settings.request c.cursor batches last ∧
          Fetched h c.settings.request (Edit.inserted es) c.cursor w batches last ∧
          ((c.after batches last).report.Fits →
            c.drain h = .ok ⟨batches, c.after batches last⟩ ∧ Drains h c batches (c.after batches last)) ∧
          (¬(c.after batches last).report.Fits → ∃ e, c.drain h = .error e ∧ e.failure = .overflow .add) := by
  obtain ⟨h, hedits, -, hrec⟩ := edits_empty hpos hfit es
  refine ⟨h, hedits, ?_⟩
  intro c hcursor hr
  obtain ⟨batches, last, hfetches, hfetched⟩ := exists_fetched hrec hfew c.settings.request hcursor
  have hopen := openValues_le_live (Edit.inserted es).length h.size c.settings.request.amount c.cursor
  have hbound : batches.length < h.size + 1 :=
    Nat.lt_succ_of_le (Nat.le_trans (hfetches.length_le hrec hfew hcursor) hopen)
  exact ⟨_, batches, last, unread_eq_unreadValues hrec hfew hcursor, hfetches, hfetched,
    drainWithin_eq_ok hfetches rfl rfl hbound, drainWithin_eq_error hfetches rfl rfl hbound hr⟩

/-- A consumer of pairs that received the first sample. -/
def pairsFromSecond : Consumer := ⟨⟨"pairs", 2, .continuous, true, 1⟩, 1, ⟨"pairs", 1, 1, 0, 0, 0, some 0, some 0⟩⟩

/-- Of four samples inserted since, three are still held: it takes one pair of them and leaves one. -/
theorem drain_takes_pair_of_three :
    0 < 3 ∧ 3 ≤ lastWord ∧ (Edit.inserted [.insertMany [blank 0, blank 1, blank 2, blank 3, blank 4]]).length ≤ lastWord ∧
      pairsFromSecond.cursor ≤ lastWord ∧ pairsFromSecond.report.Fits ∧
      ∃ h batches last, (empty 3).edits [.insertMany [blank 0, blank 1, blank 2, blank 3, blank 4]] = .ok h ∧
        h.unread 1 = .ok 3 ∧ batches.length = 3 / 2 ∧ batches.flatten = [blank 2, blank 3] ∧ h.unread last = .ok (3 % 2) ∧
        (pairsFromSecond.after batches last).report.Fits ∧
        pairsFromSecond.drain h = .ok ⟨batches, pairsFromSecond.after batches last⟩ := by
  have hpos : 0 < 3 := by decide
  have hfit : 3 ≤ lastWord := by decide
  have hfew : (Edit.inserted [.insertMany [blank 0, blank 1, blank 2, blank 3, blank 4]]).length ≤ lastWord := by decide
  have hcursor : pairsFromSecond.cursor ≤ lastWord := by decide
  have hr : pairsFromSecond.report.Fits := ⟨by decide, by decide, by decide, by decide, by decide⟩
  obtain ⟨h, hedits, hdrains⟩ := drain_takes_unread hpos hfit _ hfew
  have hnew : (empty 3).edits [.insertMany [blank 0, blank 1, blank 2, blank 3, blank 4]] =
      .ok ⟨⟨#[blank 3, blank 4, blank 2], 3, 2, 3, 5⟩⟩ := by cbv
  obtain rfl := Except.ok.inj (hedits.symm.trans hnew)
  obtain ⟨w, batches, last, hunread, -, hfetched, hdrain, -⟩ := hdrains pairsFromSecond hcursor hr
  have hthree : (⟨⟨#[blank 3, blank 4, blank 2], 3, 2, 3, 5⟩⟩ : History Sample).unread 1 = .ok 3 := by cbv
  obtain rfl := Except.ok.inj (hunread.symm.trans hthree)
  obtain ⟨hcount, hflatten, hleft⟩ := hfetched.full_batches (by decide) rfl (by decide) (by decide) rfl
  obtain ⟨batch, rfl⟩ := List.length_eq_one_iff.mp hcount
  have hpair : batch = [blank 2, blank 3] := List.flatten_singleton.symm.trans hflatten
  have hreport : (pairsFromSecond.after [batch] last).report = ⟨"pairs", 3, 2, 1, 1, 0, some 0, some 3⟩ := by
    rw [hpair]
    rfl
  have hfits : (pairsFromSecond.after [batch] last).report.Fits := by
    rw [hreport]
    exact ⟨by decide, by decide, by decide, by decide, by decide⟩
  exact ⟨hpos, hfit, hfew, hcursor, hr, _, [batch], last, hedits, hunread, hcount, hflatten, hleft, hfits, (hdrain hfits).1⟩

/-- The first number and the last word, and both again: four samples are unread, but the second jump is cut short, since what the two
jumps pass over is more than a word. -/
theorem drain_cut_short :
    ∃ h c, (empty 4).edits [.insertMany [blank 0, blank 18446744073709551615, blank 0, blank 18446744073709551615]] = .ok h ∧
      h.unread 0 = .ok 4 ∧ (create ⟨"all", 4, .continuous, false, 1⟩).drain h = .error ⟨c, .overflow .add⟩ ∧
      c.cursor = 4 ∧ c.report.batches = 0 := by
  have hnew : (empty 4).edits [.insertMany [blank 0, blank 18446744073709551615, blank 0, blank 18446744073709551615]] =
      .ok ⟨⟨#[blank 0, blank 18446744073709551615, blank 0, blank 18446744073709551615], 4, 0, 4, 4⟩⟩ := by cbv
  have hdrain : (create ⟨"all", 4, .continuous, false, 1⟩).drain
      ⟨⟨#[blank 0, blank 18446744073709551615, blank 0, blank 18446744073709551615], 4, 0, 4, 4⟩⟩ =
      .error ⟨⟨⟨"all", 4, .continuous, false, 1⟩, 4, ⟨"all", 0, 0, 2, 18446744073709551614, 1, some 0, some 0⟩⟩,
        .overflow .add⟩ := by cbv
  exact ⟨_, _, hnew, by cbv, hdrain, rfl, rfl⟩

end Consumer

end Lookback
