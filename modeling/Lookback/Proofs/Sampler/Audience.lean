import Lookback.Proofs.Sampler.Polls

/-!
# Audiences: consumers of one history

An audience is a history of samples with any number of consumers that poll it. Edits and polls come in any order (`Event`); a
poll changes nothing but its consumer, so each consumer sees the edits as if it were alone. Beside each consumer stands what
it was given so far (`Listener`). The list decides nothing; it is there to say what the report should show.

As long as the samples are numbered in the order of their insertion and the counter does not come round, every report counts
exactly what its consumer was given and what is missing in it (`loss_accounting_exact`). This holds at every moment, since what
happened up to a moment is a run of its own.
-/

namespace Lookback

open History

/-- A consumer, and the batches it was given so far. -/
structure Listener where
  consumer : Consumer
  given : List (List Sample)

/-- A history of samples and the consumers that poll it. -/
structure Audience where
  history : History Sample
  listeners : List Listener

namespace Audience

/-- What happens to an audience. -/
inductive Event where
  | edit (e : Edit Sample)
  | poll (listener : Nat)

/-- The edits among events, in order. -/
def Event.edits : List Event → List (Edit Sample)
  | [] => []
  | .edit e :: rest => e :: edits rest
  | .poll _ :: rest => edits rest

/-- A new history, and consumers that were given nothing yet. -/
def opening (capacity : Nat) (settings : List ConsumerSettings) : Audience :=
  ⟨.empty capacity, settings.map fun s => ⟨.create s, []⟩⟩

/-- One event. -/
def step (a : Audience) : Event → Except Failure Audience
  | .edit e => do
    let history ← a.history.edit e
    .ok { a with history }
  | .poll i =>
    match a.listeners[i]? with
    | none => .ok a
    | some l => do
      let polled ← (l.consumer.poll a.history).mapError Interrupted.failure
      .ok { a with listeners := a.listeners.set i ⟨polled.consumer, l.given ++ [polled.batch]⟩ }

/-- Events in order. -/
def run (a : Audience) : List Event → Except Failure Audience
  | [] => .ok a
  | e :: rest => do
    let a ← a.step e
    a.run rest

/-- An edit that comes first inserts first. -/
theorem append_edit (past : List Sample) (e : Edit Sample) (rest : List Event) :
    past ++ Edit.inserted (Event.edits (.edit e :: rest)) = past ++ e.values ++ Edit.inserted (Event.edits rest) := by
  rw [List.append_assoc]
  rfl

/-- A new audience has one consumer for each of the settings. -/
theorem opening_settings (capacity : Nat) (settings : List ConsumerSettings) :
    (opening capacity settings).listeners.map (fun l => l.consumer.settings) = settings := by
  rw [opening, List.map_map]
  exact List.map_id settings

/-- An audience of a history with a past of numbered samples, in which every report covers what was given. -/
structure Sound (a : Audience) (settings : List ConsumerSettings) (past recent : List Sample) : Prop where
  records : a.history.ring.Records 0 past recent.length
  settings_eq : a.listeners.map (fun l => l.consumer.settings) = settings
  tracks : ∀ l ∈ a.listeners, l.consumer.Tracks past.length l.given

variable {a : Audience} {settings : List ConsumerSettings} {past recent : List Sample} {capacity : Nat}

theorem opening_sound (hpos : 0 < capacity) (hfit : capacity ≤ lastWord) (settings : List ConsumerSettings) :
    (opening capacity settings).Sound settings [] [] where
  records := Ring.records_startingAt hpos hfit (Nat.zero_le _)
  settings_eq := opening_settings capacity settings
  tracks := by
    intro l hl
    obtain ⟨s, -, rfl⟩ := List.mem_map.mp hl
    exact Consumer.create_tracks s

/-- An edit adds to the past and leaves the consumers alone. -/
theorem Sound.step_edit (h : a.Sound settings past recent) (e : Edit Sample) :
    ∃ a', a.step (.edit e) = .ok a' ∧ a'.Sound settings (past ++ e.values) (e.extend recent) := by
  obtain ⟨history, hedit, -, hrec⟩ := edit_eq_ok h.records e
  refine ⟨{ a with history }, ?_, hrec, h.settings_eq, ?_⟩
  · rw [step, hedit, ok_bind]
  · intro l hl
    exact (h.tracks l hl).mono (by simp)

/-- A poll leaves the past and the other consumers alone. -/
theorem Sound.step_poll (h : a.Sound settings past recent) (hfew : past.length ≤ lastWord) (hnum : Numbered past) (i : Nat) :
    ∃ a', a.step (.poll i) = .ok a' ∧ a'.Sound settings past recent := by
  cases hi : a.listeners[i]? with
  | none =>
    refine ⟨a, ?_, h⟩
    simp only [step, hi]
  | some l =>
    obtain ⟨polled, hpoll, -, -, hsettings, htracks⟩ :=
      (h.tracks l (List.mem_of_getElem? hi)).poll h.records hfew hnum
    refine ⟨{ a with listeners := a.listeners.set i ⟨polled.consumer, l.given ++ [polled.batch]⟩ }, ?_, h.records, ?_, ?_⟩
    · simp only [step, hi, hpoll, Except.mapError, ok_bind]
    · rw [← h.settings_eq]
      exact map_set_of_eq hi hsettings
    · intro l' hl'
      rcases List.mem_or_eq_of_mem_set hl' with hl' | rfl
      · exact h.tracks l' hl'
      · exact htracks

/-- Every run of an audience succeeds and leaves it sound. -/
theorem Sound.run (h : a.Sound settings past recent) (events : List Event)
    (hfew : (past ++ Edit.inserted (Event.edits events)).length ≤ lastWord)
    (hnum : Numbered (past ++ Edit.inserted (Event.edits events))) :
    ∃ a', a.run events = .ok a' ∧
      a'.Sound settings (past ++ Edit.inserted (Event.edits events)) ((Event.edits events).foldl Edit.extend recent) := by
  induction events generalizing a past recent with
  | nil => exact ⟨a, rfl, by simpa [Event.edits] using h⟩
  | cons event rest ih =>
    cases event with
    | edit e =>
      rw [append_edit] at hfew hnum ⊢
      obtain ⟨a₁, hstep, h₁⟩ := h.step_edit e
      obtain ⟨a₂, hrun, h₂⟩ := ih h₁ hfew hnum
      refine ⟨a₂, ?_, h₂⟩
      rw [Audience.run, hstep, ok_bind, hrun]
    | poll i =>
      have hbefore : past.length ≤ lastWord := by
        rw [List.length_append] at hfew
        exact Nat.le_trans (Nat.le_add_right _ _) hfew
      obtain ⟨a₁, hstep, h₁⟩ := h.step_poll hbefore (hnum.of_prefix (List.prefix_append _ _)) i
      obtain ⟨a₂, hrun, h₂⟩ := ih h₁ hfew hnum
      refine ⟨a₂, ?_, h₂⟩
      rw [Audience.run, hstep, ok_bind, hrun]

/-- Whatever edits and polls come in whatever order, for any number of consumers of any settings, as long as the samples
inserted are numbered from zero and fewer than `2 ^ 64`: each consumer's report counts no duplicates; it names the first and
the last number received, counts as skipped the numbers between them that were not received, and as gaps the longest
stretches of such numbers; and it counts the samples and the batches given, empty ones left out. -/
theorem loss_accounting_exact (hpos : 0 < capacity) (hfit : capacity ≤ lastWord) (settings : List ConsumerSettings)
    (events : List Event) (hnumbered : Numbered (Edit.inserted (Event.edits events)))
    (hfew : (Edit.inserted (Event.edits events)).length ≤ lastWord) :
    ∃ a, (opening capacity settings).run events = .ok a ∧ a.listeners.map (fun l => l.consumer.settings) = settings ∧
      ∀ l ∈ a.listeners,
        l.consumer.report.duplicates = 0 ∧
        l.consumer.report.first = (Sample.numbers l.given.flatten).head? ∧
        l.consumer.report.last = (Sample.numbers l.given.flatten).getLast? ∧
        l.consumer.report.skipped = (missing (Sample.numbers l.given.flatten)).length ∧
        l.consumer.report.gaps = (holes (Sample.numbers l.given.flatten)).length ∧
        l.consumer.report.received = l.given.flatten.length ∧
        l.consumer.report.batches = l.given.countP fun batch => !batch.isEmpty := by
  obtain ⟨a, hrun, hsound⟩ := (opening_sound hpos hfit settings).run events (by simpa using hfew) (by simpa using hnumbered)
  refine ⟨a, hrun, hsound.settings_eq, ?_⟩
  intro l hl
  have hcovers := (hsound.tracks l hl).covers
  have haccounts := hcovers.accounts
  rw [← Sample.numbers_flatten] at haccounts
  refine ⟨haccounts.duplicates_eq, haccounts.first_eq, haccounts.last_eq, haccounts.skipped_eq, haccounts.gaps_eq, ?_, ?_⟩
  · rw [hcovers.received_eq, ← Sample.numbers_flatten, Sample.numbers, List.length_map]
  · rw [hcovers.batches_eq, List.countP_map]
    congr 1
    funext batch
    cases batch <;> rfl

/-- A sample of which only the number matters. -/
def blank (sequence : UInt64) : Sample := ⟨sequence, .epoch, 0⟩

/-- Eight samples and a clear, with polls of two consumers in between. -/
def overrunEvents : List Event :=
  [.edit (.insert (blank 0)), .poll 0, .poll 1, .edit (.insertMany [blank 1, blank 2, blank 3]), .poll 0, .edit .clear,
    .edit (.insertMany [blank 4, blank 5]), .poll 1, .edit (.insertMany [blank 6, blank 7]), .poll 0]

/-- In a ring of two slots one reader skips to the newest sample each time, and one loses three samples to overwriting and to the
clear. -/
theorem loss_accounting_of_overrun :
    0 < 2 ∧ 2 ≤ lastWord ∧ Numbered (Edit.inserted (Event.edits overrunEvents)) ∧
      (Edit.inserted (Event.edits overrunEvents)).length ≤ lastWord ∧
      ∃ a newest all, (opening 2 [⟨"newest", 1, .windowed, false, 1⟩, ⟨"all", 2, .continuous, false, 1⟩]).run overrunEvents =
          .ok a ∧ a.listeners = [newest, all] ∧
        Sample.numbers newest.given.flatten = [0, 3, 7] ∧ missing [0, 3, 7] = [1, 2, 4, 5, 6] ∧
        holes [0, 3, 7] = [[1, 2], [4, 5, 6]] ∧
        newest.consumer.report.skipped = [1, 2, 4, 5, 6].length ∧
        newest.consumer.report.gaps = [[1, 2], [4, 5, 6]].length ∧
        Sample.numbers all.given.flatten = [0, 4, 5] ∧ missing [0, 4, 5] = [1, 2, 3] ∧
        all.consumer.report.skipped = [1, 2, 3].length ∧ all.consumer.report.batches = 2 := by
  have hpos : 0 < 2 := by decide
  have hfit : 2 ≤ lastWord := by decide
  have hnumbered : Numbered (Edit.inserted (Event.edits overrunEvents)) := rfl
  have hfew : (Edit.inserted (Event.edits overrunEvents)).length ≤ lastWord := by decide
  obtain ⟨a, hrun, -, hreports⟩ := loss_accounting_exact hpos hfit
    [⟨"newest", 1, .windowed, false, 1⟩, ⟨"all", 2, .continuous, false, 1⟩] overrunEvents hnumbered hfew
  have hevents : (opening 2 [⟨"newest", 1, .windowed, false, 1⟩, ⟨"all", 2, .continuous, false, 1⟩]).run overrunEvents =
      .ok ⟨⟨⟨#[blank 6, blank 7], 2, 0, 2, 8⟩⟩,
        [⟨⟨⟨"newest", 1, .windowed, false, 1⟩, 8, ⟨"newest", 3, 3, 2, 5, 0, some 0, some 7⟩⟩,
            [[blank 0], [blank 3], [blank 7]]⟩,
          ⟨⟨⟨"all", 2, .continuous, false, 1⟩, 6, ⟨"all", 3, 2, 1, 3, 0, some 0, some 5⟩⟩,
            [[blank 0], [blank 4, blank 5]]⟩]⟩ := by cbv
  obtain rfl := Except.ok.inj (hrun.symm.trans hevents)
  obtain ⟨-, -, -, hskipped, hgaps, -, -⟩ := hreports _ List.mem_cons_self
  obtain ⟨-, -, -, hskipped', -, -, hbatches'⟩ := hreports _ (List.mem_cons_of_mem _ List.mem_cons_self)
  exact ⟨hpos, hfit, hnumbered, hfew, _, _, _, hrun, rfl, rfl, rfl, rfl, hskipped, hgaps, rfl, rfl, hskipped', hbatches'⟩

end Audience

end Lookback
