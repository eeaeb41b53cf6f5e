import Lookback.Proofs.History.Backlog
import Lookback.Proofs.Sampler.Polls

/-!
# Draining a history

A consumer drains a history by polling until a poll brings nothing. `Drains` says just this, as a relation that knows no bound on
the number of polls. Every batch leaves fewer samples open to the consumer, so one poll more than there are samples is enough
(`Tracks.drain`).
-/

namespace Lookback

namespace Consumer

variable {c c' : Consumer} {h : History Sample} {past : List Sample} {recent : Nat} {batches given : List (List Sample)}

/-- Polls of an unchanged history until one brings nothing, with the batches of those before it. -/
inductive Drains (h : History Sample) : Consumer → List (List Sample) → Consumer → Prop where
  | stop {c : Consumer} {polled : Polled} (poll_eq : c.poll h = .ok polled) (empty : polled.batch = []) :
      Drains h c [] polled.consumer
  | more {c c' : Consumer} {polled : Polled} {given : List (List Sample)} (poll_eq : c.poll h = .ok polled)
      (some : polled.batch ≠ []) (rest : Drains h polled.consumer given c') : Drains h c (polled.batch :: given) c'

/-- A drain ends with a poll that brings nothing. -/
theorem drainWithin_of_empty {polled : Polled} (hpoll : c.poll h = .ok polled) (hempty : polled.batch = []) (bound : Nat) :
    drainWithin h (bound + 1) c = .ok ⟨[], polled.consumer⟩ := by
  simp only [drainWithin, hpoll, hempty, List.isEmpty_nil, if_true, ok_bind]

/-- After a poll that brings something it goes on. -/
theorem drainWithin_of_some {polled : Polled} (hpoll : c.poll h = .ok polled) (hsome : polled.batch ≠ []) (bound : Nat) :
    drainWithin h (bound + 1) c = (drainWithin h bound polled.consumer).map
      fun drained => ⟨polled.batch :: drained.batches, drained.consumer⟩ := by
  have hfull : polled.batch.isEmpty = false := by simpa using hsome
  simp only [drainWithin, hpoll, hfull, Bool.false_eq_true, if_false, ok_bind]
  cases drainWithin h bound polled.consumer <;> rfl

/-- A bound above the number of samples open to a consumer is never reached. -/
theorem Tracks.drainWithin (hrec : h.ring.Records 0 past recent) (hfew : past.length ≤ lastWord) (hnum : Numbered past)
    {bound : Nat} (ht : c.Tracks past.length batches)
    (hbound : openValues past.length h.size c.settings.request.amount c.cursor < bound) :
    ∃ drained, Consumer.drainWithin h bound c = .ok drained ∧ Drains h c drained.batches drained.consumer := by
  induction bound generalizing c batches with
  | zero => exact absurd hbound (Nat.not_lt_zero _)
  | succ bound ih =>
    obtain ⟨polled, hpoll, hbatch, hcursor, hsettings, ht'⟩ := ht.poll hrec hfew hnum
    by_cases hempty : polled.batch = []
    · exact ⟨_, drainWithin_of_empty hpoll hempty bound, .stop hpoll hempty⟩
    · -- a batch takes from what is open, so the bound outlasts the rest as well
      have hless : openValues past.length h.size c.settings.request.amount (c.answer past h.size).cursor <
          openValues past.length h.size c.settings.request.amount c.cursor :=
        Request.openValues_answer_lt hrec.live_le_length (by rw [hbatch] at hempty; exact hempty)
      obtain ⟨drained, hdrained, hdrains⟩ := ih ht' (by rw [hsettings, hcursor]; omega)
      refine ⟨⟨polled.batch :: drained.batches, drained.consumer⟩, ?_, .more hpoll hempty hdrains⟩
      rw [drainWithin_of_some hpoll hempty, hdrained]
      rfl

/-- Where the samples are numbered, a drain is never cut short. -/
theorem Tracks.drain (ht : c.Tracks past.length batches) (hrec : h.ring.Records 0 past recent)
    (hfew : past.length ≤ lastWord) (hnum : Numbered past) :
    ∃ drained, c.drain h = .ok drained ∧ Drains h c drained.batches drained.consumer :=
  Tracks.drainWithin hrec hfew hnum ht (Nat.lt_succ_of_le (openValues_le_live _ _ _ _))

end Consumer

end Lookback
