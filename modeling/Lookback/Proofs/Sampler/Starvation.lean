import Lookback.Proofs.History.Batches
import Lookback.Proofs.Sampler.Audience

/-!
# Consumers that wait for full batches

A consumer of full batches waits until enough samples are unread. No more samples are unread than are held, so one that asks for
more than a history can hold waits for ever: its polls bring nothing and leave it as it was created (`Starved.run`). One that asks
for no more is served as soon as enough samples were inserted since its cursor, even where the first of them are overwritten by then
(`Kept.pollsFull`). Settings are checked for just this (`full_batches_served_up_to_capacity`).

Nothing may be cleared meanwhile: what is cleared is counted as inserted, and is unread no more. And a poll that reads a full batch
may still be cut short while it accounts for the samples (`full_batch_cut_short`).
-/

namespace Lookback

open History

/-- A poll of a consumer reads a full batch. It brings the batch and the exact counts, if these fit into words; otherwise it is cut
short by a sum that does not. -/
def Consumer.PollsFull (c : Consumer) (h : History Sample) : Prop :=
  ∃ batch next, h.read c.settings.request c.cursor = .ok ⟨batch, next⟩ ∧ batch.length = c.settings.amount.toNat ∧
    ((c.report.tallyBatch (Sample.numbers batch)).Fits →
      c.poll h = .ok ⟨batch, ⟨c.settings, next, c.report.tallyBatch (Sample.numbers batch)⟩⟩) ∧
    (¬(c.report.tallyBatch (Sample.numbers batch)).Fits → ∃ e, c.poll h = .error e ∧ e.failure = .overflow .add)

namespace Audience

variable {a : Audience} {s : ConsumerSettings} {settings : List ConsumerSettings} {past : List Sample} {capacity : Nat}

/-! ## Consumers that are served -/

/-- An audience of a history from which nothing was cleared. -/
structure Kept (a : Audience) (capacity : Nat) (settings : List ConsumerSettings) (past : List Sample) : Prop where
  records : a.history.ring.Records 0 past past.length
  capacity_eq : a.history.capacity = capacity
  settings_eq : a.listeners.map (fun l => l.consumer.settings) = settings
  within : ∀ l ∈ a.listeners, l.consumer.Within past.length

theorem opening_kept (hpos : 0 < capacity) (hfit : capacity ≤ lastWord) (settings : List ConsumerSettings) :
    (opening capacity settings).Kept capacity settings [] where
  records := Ring.records_startingAt hpos hfit (Nat.zero_le _)
  capacity_eq := rfl
  settings_eq := opening_settings capacity settings
  within := by
    intro l hl
    obtain ⟨s, -, rfl⟩ := List.mem_map.mp hl
    exact Consumer.create_within s

/-- An edit that clears nothing adds to the past and leaves the consumers alone. -/
theorem Kept.step_edit (h : a.Kept capacity settings past) {e : Edit Sample} (hkept : e ≠ .clear) :
    ∃ a', a.step (.edit e) = .ok a' ∧ a'.Kept capacity settings (past ++ e.values) := by
  obtain ⟨history, hedit, hcapacity, hrec⟩ := edit_eq_ok h.records e
  rw [Edit.extend_of_ne_clear hkept] at hrec
  refine ⟨{ a with history }, ?_, hrec, hcapacity.trans h.capacity_eq, h.settings_eq, ?_⟩
  · rw [step, hedit, ok_bind]
  · intro l hl
    exact (h.within l hl).mono (by simp)

/-- A poll is cut short by a sum that is too large, or leaves the past and the other consumers alone. -/
theorem Kept.step_poll (h : a.Kept capacity settings past) (hfew : past.length ≤ lastWord) (i : Nat) :
    a.step (.poll i) = .error (.overflow .add) ∨ ∃ a', a.step (.poll i) = .ok a' ∧ a'.Kept capacity settings past := by
  cases hi : a.listeners[i]? with
  | none =>
    refine Or.inr ⟨a, ?_, h⟩
    simp only [step, hi]
  | some l =>
    have hl := List.mem_of_getElem? hi
    rcases (h.within l hl).poll h.records hfew with ⟨e, hpoll, hfailure⟩ | ⟨polled, hpoll, hsettings, hwithin⟩
    · left
      simp only [step, hi, hpoll, Except.mapError, error_bind, hfailure]
    · refine Or.inr ⟨{ a with listeners := a.listeners.set i ⟨polled.consumer, l.given ++ [polled.batch]⟩ }, ?_, ?_⟩
      · simp only [step, hi, hpoll, Except.mapError, ok_bind]
      constructor
      case records => exact h.records
      case capacity_eq => exact h.capacity_eq
      case settings_eq =>
        rw [← h.settings_eq]
        exact map_set_of_eq hi hsettings
      case within =>
        intro l' hl'
        rcases List.mem_or_eq_of_mem_set hl' with hl' | rfl
        · exact h.within l' hl'
        · exact hwithin

/-- Events that clear nothing, fewer than `2 ^ 64` insertions in all, end in a poll that is cut short, or keep the audience so. -/
theorem Kept.run (h : a.Kept capacity settings past) (events : List Event) (hkept : .clear ∉ Event.edits events)
    (hfew : (past ++ Edit.inserted (Event.edits events)).length ≤ lastWord) :
    a.run events = .error (.overflow .add) ∨
      ∃ a', a.run events = .ok a' ∧ a'.Kept capacity settings (past ++ Edit.inserted (Event.edits events)) := by
  induction events generalizing a past with
  | nil => exact Or.inr ⟨a, rfl, by simpa [Event.edits] using h⟩
  | cons event rest ih =>
    cases event with
    | edit e =>
      rw [Event.edits, List.mem_cons, not_or] at hkept
      rw [append_edit] at hfew ⊢
      obtain ⟨a₁, hstep, h₁⟩ := h.step_edit (Ne.symm hkept.1)
      rw [Audience.run, hstep, ok_bind]
      exact ih h₁ hkept.2 hfew
    | poll i =>
      have hbefore : past.length ≤ lastWord := by
        rw [List.length_append] at hfew
        exact Nat.le_trans (Nat.le_add_right _ _) hfew
      rcases h.step_poll hbefore i with hstep | ⟨a₁, hstep, h₁⟩
      · left
        rw [Audience.run, hstep, error_bind]
      · rw [Audience.run, hstep, ok_bind]
        exact ih h₁ hkept hfew

/-- Where a full batch fits into the slots and enough samples were inserted since the cursor of a consumer, its poll reads one. -/
theorem Kept.pollsFull (h : a.Kept capacity settings past) (hfew : past.length ≤ lastWord) {l : Listener}
    (hl : l ∈ a.listeners) (hamount : l.consumer.settings.amount.toNat ≠ 0)
    (hroom : l.consumer.settings.amount.toNat ≤ capacity)
    (henough : l.consumer.settings.amount.toNat ≤ past.length - l.consumer.cursor) : l.consumer.PollsFull a.history := by
  have hcursor := (h.within l hl).cursor_le
  have hwritten : a.history.ring.written = past.length := cursor_eq_length h.records hfew
  have hlive := h.records.live_eq
  rw [show a.history.ring.capacity = capacity from h.capacity_eq] at hlive
  have hunread : l.consumer.settings.request.amount ≤
      min (insertionsSince a.history.ring.written l.consumer.cursor) a.history.ring.live := by
    rw [hwritten, insertionsSince_of_le hcursor hfew, hlive]
    simp only [ConsumerSettings.request]
    omega
  obtain ⟨batch, next, hread, hlength⟩ := h.records.read_of_unread hamount (Nat.le_trans hcursor hfew) hunread
  exact ⟨batch, next, hread, hlength, Consumer.poll_eq_ok hread, Consumer.poll_eq_error hread (h.within l hl).fits⟩

/-! ## Consumers that are not -/

/-- A consumer of full batches that are larger than what can be held gets nothing, and is left as it was. -/
theorem starved_poll {h : History Sample} {start recent : Nat} (hrec : h.ring.Records start past recent)
    (hexact : s.exact = true) (hover : h.capacity < s.amount.toNat) :
    (Consumer.create s).poll h = .ok ⟨[], .create s⟩ := by
  have hamount : s.request.amount ≠ 0 := Nat.ne_of_gt (Nat.lt_of_le_of_lt (Nat.zero_le _) hover)
  have hlive : h.ring.live ≤ h.capacity := hrec.live_le_capacity
  have hshort : s.request.exact = true ∧ min (insertionsSince h.ring.written 0) h.ring.live < s.request.amount :=
    ⟨hexact, Nat.lt_of_le_of_lt (Nat.le_trans (Nat.min_le_right _ _) hlive) hover⟩
  have hread : h.read s.request 0 = .ok ⟨[], 0⟩ := by
    rw [History.read, hrec.read_eq_ok _ (Nat.zero_le _), if_neg hamount, if_pos hshort]
  exact Consumer.poll_eq_ok (c := .create s) hread (Report.empty_fits s.name)

/-- An audience of one consumer, as it was created and given nothing. -/
structure Starved (a : Audience) (capacity : Nat) (s : ConsumerSettings) (past recent : List Sample) : Prop where
  records : a.history.ring.Records 0 past recent.length
  capacity_eq : a.history.capacity = capacity
  listener : ∃ given, a.listeners = [⟨.create s, given⟩] ∧ ∀ batch ∈ given, batch = []

/-- No event changes the consumer, or brings it anything. -/
theorem Starved.step {recent : List Sample} (h : a.Starved capacity s past recent) (hexact : s.exact = true)
    (hover : capacity < s.amount.toNat) (event : Event) :
    ∃ a' past' recent', a.step event = .ok a' ∧ a'.Starved capacity s past' recent' := by
  cases event with
  | edit e =>
    obtain ⟨history, hedit, hcapacity, hrec⟩ := edit_eq_ok h.records e
    refine ⟨{ a with history }, past ++ e.values, e.extend recent, ?_, hrec, hcapacity.trans h.capacity_eq, h.listener⟩
    rw [Audience.step, hedit, ok_bind]
  | poll i =>
    obtain ⟨given, hlisteners, hnothing⟩ := h.listener
    cases i with
    | zero =>
      have hpoll := starved_poll h.records hexact (by rw [h.capacity_eq]; exact hover)
      refine ⟨{ a with listeners := [⟨.create s, given ++ [[]]⟩] }, past, recent, ?_, h.records, h.capacity_eq,
        given ++ [[]], rfl, ?_⟩
      · simp only [Audience.step, hlisteners, List.getElem?_cons_zero, hpoll, Except.mapError, ok_bind, List.set_cons_zero]
      · intro batch hbatch
        rcases List.mem_append.mp hbatch with hbatch | hbatch
        · exact hnothing batch hbatch
        · exact List.mem_singleton.mp hbatch
    | succ i =>
      refine ⟨a, past, recent, ?_, h⟩
      simp only [Audience.step, hlisteners, List.getElem?_cons_succ, List.getElem?_nil]

/-- Whatever is edited and polled, a consumer of full batches that are larger than what can be held stays as it was. -/
theorem Starved.run {recent : List Sample} (h : a.Starved capacity s past recent) (hexact : s.exact = true)
    (hover : capacity < s.amount.toNat) (events : List Event) :
    ∃ a' past' recent', a.run events = .ok a' ∧ a'.Starved capacity s past' recent' := by
  induction events generalizing a past recent with
  | nil => exact ⟨a, past, recent, rfl, h⟩
  | cons event rest ih =>
    obtain ⟨a₁, past₁, recent₁, hstep, h₁⟩ := h.step hexact hover event
    rw [Audience.run, hstep, ok_bind]
    exact ih h₁

/-! ## The check of settings -/

/-- A consumer that takes samples is refused for the size of its batches if it asks for full ones that cannot be held. -/
theorem validate_eq_amountAboveCapacity_iff {capacity : UInt64} (hamount : s.amount ≠ 0) (hexact : s.exact = true) :
    s.validate capacity = .error (.amountAboveCapacity s.name) ↔ capacity.toNat < s.amount.toNat := by
  unfold ConsumerSettings.validate
  rw [if_neg hamount, ← UInt64.lt_iff_toNat_lt]
  by_cases hover : capacity < s.amount
  · simp [hexact, hover]
  · simp only [hover, and_false, if_false, iff_false]
    split <;> simp

/-- The check of a consumer of full batches refuses it for the size of its batches just if no history of so many slots can ever serve
it. If a batch fits, then whatever is inserted and polled without a clear, fewer than `2 ^ 64` samples in all: each poll made when
enough samples were inserted since the cursor reads a full batch, as long as no poll was cut short by a sum in the report that does
not fit its word. If no batch fits, then whatever is edited and polled: every poll brings nothing, and the consumer stays as it was
created. -/
theorem full_batches_served_up_to_capacity {capacity : UInt64} (hpos : capacity ≠ 0) {s : ConsumerSettings} (hamount : s.amount ≠ 0)
    (hexact : s.exact = true) :
    (s.validate capacity = .error (.amountAboveCapacity s.name) ↔ capacity.toNat < s.amount.toNat) ∧
      (s.amount.toNat ≤ capacity.toNat → ∀ events, .clear ∉ Event.edits events →
        (Edit.inserted (Event.edits events)).length ≤ lastWord →
          (opening capacity.toNat [s]).run events = .error (.overflow .add) ∨
            ∃ a c given, (opening capacity.toNat [s]).run events = .ok a ∧ a.listeners = [⟨c, given⟩] ∧ c.settings = s ∧
              c.cursor ≤ (Edit.inserted (Event.edits events)).length ∧
              (s.amount.toNat ≤ (Edit.inserted (Event.edits events)).length - c.cursor → c.PollsFull a.history)) ∧
      (capacity.toNat < s.amount.toNat → ∀ events, ∃ a given, (opening capacity.toNat [s]).run events = .ok a ∧
        a.listeners = [⟨.create s, given⟩] ∧ (∀ batch ∈ given, batch = []) ∧
        (Consumer.create s).poll a.history = .ok ⟨[], .create s⟩) := by
  have hslots : 0 < capacity.toNat := Nat.pos_of_ne_zero fun hzero => hpos (UInt64.toNat_inj.mp hzero)
  have hfit : capacity.toNat ≤ lastWord := Nat.le_of_lt_succ capacity.toNat_lt
  refine ⟨validate_eq_amountAboveCapacity_iff hamount hexact, ?_, ?_⟩
  · intro hroom events hkept hfew
    rcases (opening_kept hslots hfit [s]).run events hkept (by simpa using hfew) with hcut | ⟨a, hrun, hkept'⟩
    · exact Or.inl hcut
    · rw [List.nil_append] at hkept'
      obtain ⟨⟨c, given⟩, hlisteners, hsettings⟩ := List.map_eq_singleton_iff.mp hkept'.settings_eq
      have hl : (⟨c, given⟩ : Listener) ∈ a.listeners := by simp [hlisteners]
      obtain rfl : c.settings = s := hsettings
      have hasked : c.settings.amount.toNat ≠ 0 := fun hzero => hamount (UInt64.toNat_inj.mp hzero)
      exact Or.inr ⟨a, c, given, hrun, hlisteners, rfl, (hkept'.within _ hl).cursor_le, hkept'.pollsFull hfew hl hasked hroom⟩
  · intro hover events
    have hopening : (opening capacity.toNat [s]).Starved capacity.toNat s [] [] :=
      ⟨Ring.records_startingAt hslots hfit (Nat.zero_le _), rfl, [], rfl, by simp⟩
    obtain ⟨a, past, recent, hrun, hstarved⟩ := hopening.run hexact hover events
    obtain ⟨given, hlisteners, hnothing⟩ := hstarved.listener
    have hpoll := starved_poll hstarved.records hexact (by rw [hstarved.capacity_eq]; exact hover)
    exact ⟨a, given, hrun, hlisteners, hnothing, hpoll⟩

/-- A consumer of full batches of so many samples. -/
def fullBatches (amount : UInt64) : ConsumerSettings := ⟨"batches", amount, .continuous, true, 10⟩

/-- Three samples, a poll, and three samples more. -/
def sixSamples : List Event :=
  [.edit (.insertMany [blank 0, blank 1, blank 2]), .poll 0, .edit (.insertMany [blank 3, blank 4, blank 5])]

/-- Two slots serve a consumer of pairs, even after it lost a sample; a consumer of triples they never serve, and it is refused. -/
theorem two_slots_serve_pairs_and_starve_triples :
    (2 : UInt64) ≠ 0 ∧ (fullBatches 2).amount ≠ 0 ∧ (fullBatches 3).amount ≠ 0 ∧ (fullBatches 2).exact = true ∧
      (fullBatches 3).exact = true ∧ (fullBatches 2).amount.toNat ≤ (2 : UInt64).toNat ∧ .clear ∉ Event.edits sixSamples ∧
      (Edit.inserted (Event.edits sixSamples)).length ≤ lastWord ∧ (2 : UInt64).toNat < (fullBatches 3).amount.toNat ∧
      (∃ a c given, (opening 2 [fullBatches 2]).run sixSamples = .ok a ∧ a.listeners = [⟨c, given⟩] ∧
        given = [[blank 1, blank 2]] ∧ 2 ≤ 6 - c.cursor ∧ c.PollsFull a.history) ∧
      (fullBatches 3).validate 2 = .error (.amountAboveCapacity "batches") ∧
      ∃ a given, (opening 2 [fullBatches 3]).run sixSamples = .ok a ∧ a.listeners = [⟨.create (fullBatches 3), given⟩] ∧
        (Consumer.create (fullBatches 3)).poll a.history = .ok ⟨[], .create (fullBatches 3)⟩ := by
  have hpos : (2 : UInt64) ≠ 0 := by decide
  have htwo : (fullBatches 2).amount ≠ 0 := by decide
  have hthree : (fullBatches 3).amount ≠ 0 := by decide
  have hroom : (fullBatches 2).amount.toNat ≤ (2 : UInt64).toNat := by decide
  have hkept : .clear ∉ Event.edits sixSamples := by simp [sixSamples, Event.edits]
  have hfew : (Edit.inserted (Event.edits sixSamples)).length ≤ lastWord := by decide
  have hover : (2 : UInt64).toNat < (fullBatches 3).amount.toNat := by decide
  obtain ⟨-, hserved, -⟩ := full_batches_served_up_to_capacity hpos htwo rfl
  obtain ⟨hrefused, -, hstarved⟩ := full_batches_served_up_to_capacity hpos hthree rfl
  have hpairs : (opening 2 [fullBatches 2]).run sixSamples =
      .ok ⟨⟨⟨#[blank 4, blank 5], 2, 0, 2, 6⟩⟩,
        [⟨⟨fullBatches 2, 3, ⟨"batches", 2, 1, 0, 0, 0, some 1, some 2⟩⟩, [[blank 1, blank 2]]⟩]⟩ := by cbv
  refine ⟨hpos, htwo, hthree, rfl, rfl, hroom, hkept, hfew, hover, ?_, hrefused.mpr hover, ?_⟩
  · rcases hserved hroom sixSamples hkept hfew with hcut | ⟨a, c, given, hrun, hlisteners, -, -, hpolls⟩
    · cases hcut.symm.trans hpairs
    · obtain rfl := Except.ok.inj (hrun.symm.trans hpairs)
      obtain ⟨rfl, rfl⟩ := Listener.mk.inj (List.head_eq_of_cons_eq hlisteners)
      exact ⟨_, _, _, hrun, rfl, rfl, by decide, hpolls (by decide)⟩
  · obtain ⟨a, given, hrun, hlisteners, -, hpoll⟩ := hstarved hover sixSamples
    exact ⟨a, given, hrun, hlisteners, hpoll⟩

/-- The first number and the last word, twice: the second pair is held and unread, but its poll is cut short, since what the two jumps
pass over is more than a word. -/
theorem full_batch_cut_short :
    ∃ a c given e, (opening 2 [fullBatches 2]).run [.edit (.insertMany [blank 0, blank 18446744073709551615]), .poll 0,
        .edit (.insertMany [blank 0, blank 18446744073709551615])] = .ok a ∧
      a.listeners = [⟨c, given⟩] ∧ given = [[blank 0, blank 18446744073709551615]] ∧ 2 ≤ 4 - c.cursor ∧
      a.history.unread c.cursor = .ok 2 ∧ c.poll a.history = .error e ∧ e.failure = .overflow .add := by
  have hrun : (opening 2 [fullBatches 2]).run [.edit (.insertMany [blank 0, blank 18446744073709551615]), .poll 0,
      .edit (.insertMany [blank 0, blank 18446744073709551615])] =
      .ok ⟨⟨⟨#[blank 0, blank 18446744073709551615], 2, 0, 2, 4⟩⟩,
        [⟨⟨fullBatches 2, 2, ⟨"batches", 2, 1, 1, 18446744073709551614, 0, some 0, some 18446744073709551615⟩⟩,
          [[blank 0, blank 18446744073709551615]]⟩]⟩ := by cbv
  have hpoll : (⟨fullBatches 2, 2, ⟨"batches", 2, 1, 1, 18446744073709551614, 0, some 0, some 18446744073709551615⟩⟩ :
      Consumer).poll ⟨⟨#[blank 0, blank 18446744073709551615], 2, 0, 2, 4⟩⟩ =
      .error ⟨⟨fullBatches 2, 4, ⟨"batches", 2, 1, 2, 18446744073709551614, 1, some 0, some 0⟩⟩, .overflow .add⟩ := by cbv
  exact ⟨_, _, _, _, hrun, rfl, rfl, by decide, by cbv, hpoll, rfl⟩

end Audience

end Lookback
