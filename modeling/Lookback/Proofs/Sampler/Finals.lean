import Mathlib.Data.List.Forall2
import Lookback.Proofs.History.Views
import Lookback.Proofs.Sampler.Steps
import Lookback.Sampler.Run

/-!
# Final reports

A run ends when the producer has written all its samples: every consumer then drains the history, and its report is final. A drain
changes nothing but its consumer, so it does not matter who drains first. Whatever polls came before in whatever order, the
reports are those of the configured consumers, in their order; `Report.FinalFor` says what each of them must show
(`Run.final_reports`).

The samples of a run are numbered as they are written and nothing is ever cleared, so a run keeps its history intact and its
consumers in step (`Run.Reached`): by one action at a time, and from there by any list of actions.

Validation looks at the capacity only to see that it is not zero. All slots are set aside at once, so where there is no room for
them a run ends before its first action (`Run.perform_eq_error`): more bytes than have addresses are refused by any memory, and
fewer may still be more than the system grants. Such settings are valid all the same, and no report comes of them
(`Run.final_reports_of_any_capacity_false`).
-/

namespace Lookback

/-- What the final report of a consumer shows, after so many samples were written to a history of `capacity` slots. It has its
name and no duplicates. If any batch is taken the last sample is the last one written; if only full ones are taken they were
full and fewer samples than a batch are left. If samples are read in order and all of them fit into the slots, none was
skipped. -/
structure Report.FinalFor (r : Report) (s : ConsumerSettings) (capacity samples : Nat) : Prop where
  name_eq : r.name = s.name
  no_duplicates : r.duplicates = 0
  last_of_inexact : s.exact = false → r.last = if samples = 0 then none else some (samples - 1)
  received_of_exact : s.exact = true → r.received = r.batches * s.amount.toNat
  left_of_exact : s.exact = true → ∃ left, r.next + left = samples ∧ left < s.amount.toNat
  nothing_skipped : s.mode = .continuous → samples ≤ capacity → r.gaps = 0 ∧ r.skipped = 0

/-- A consumer in step that has caught up has its final report. -/
theorem Consumer.InStep.finalFor {c : Consumer} {capacity samples : Nat} {batches : List (List Sample)}
    (hs : c.InStep capacity samples batches) (hcaught : c.CaughtUp samples) :
    c.report.FinalFor c.settings capacity samples := by
  have hcovers := hs.tracks.covers
  have haccounts := hcovers.accounts
  constructor
  case name_eq => exact hs.tracks.name_eq
  case no_duplicates => exact haccounts.duplicates_eq
  case last_of_inexact =>
    intro hinexact
    exact Report.last_of_next (hs.cursor_eq.symm.trans (hcaught.of_inexact hinexact))
  case received_of_exact =>
    intro hexact
    rw [hcovers.received_eq, hcovers.batches_eq]
    apply length_flatten_of_full
    intro numbers hnumbers hsome
    obtain ⟨batch, hbatch, rfl⟩ := List.mem_map.mp hnumbers
    rw [Sample.numbers, List.length_map]
    exact hs.full hexact batch hbatch fun hempty => hsome (by rw [hempty]; rfl)
  case left_of_exact =>
    intro hexact
    have hleft := hcaught.of_exact hexact
    have hle := hs.tracks.cursor_le
    refine ⟨samples - c.cursor, ?_, by omega⟩
    rw [← hs.cursor_eq]
    omega
  case nothing_skipped =>
    intro hmode hroom
    obtain ⟨first, -, hnumbers⟩ := hs.unbroken hmode hroom
    rw [← Sample.numbers_flatten, hnumbers] at haccounts
    rw [haccounts.gaps_eq, haccounts.skipped_eq, holes, missing_range']
    exact ⟨rfl, rfl⟩

namespace Run

variable {memory : Memory} {s : Settings} {clock : Nat → Timestamp} {st : State} {n : Nat}

/-- A state that a run reaches after so many writes. -/
structure State.Reached (st : State) (s : Settings) (clock : Nat → Timestamp) (n : Nat) : Prop where
  count_eq : st.produced.count = n
  intact : Intact st.produced.history s.buffer.capacity.toNat (Producer.written clock n)
  settings_eq : st.consumers.map Consumer.settings = s.consumers
  inStep : ∀ c ∈ st.consumers, ∃ batches, c.InStep s.buffer.capacity.toNat n batches

/-! ## The first state -/

/-- Valid settings with names for all workers give a first state, if there is room for the slots. -/
theorem start_reached (hvalid : s.validate = .ok ()) (hnames : checkNames (s.consumers.map ConsumerSettings.name) = .ok ())
    (hroom : memory.reserve s.buffer.capacity.toNat Sample.size = .ok ()) (clock : Nat → Timestamp) :
    ∃ st, start memory s = .ok st ∧ st.Reached s clock 0 := by
  obtain ⟨hbuffer, hpos, hfits⟩ := Settings.fits_of_validate hvalid
  have hfit : s.buffer.capacity.toNat ≤ lastWord := Nat.le_of_lt_succ s.buffer.capacity.toNat_lt
  have hhistory : (History.ofValidSettings memory Sample.size s.buffer : Except Failure (History Sample)) =
      .ok (.empty s.buffer.capacity.toNat) := by
    rw [History.ofValidSettings_eq hbuffer, History.create_eq hpos, hroom]
    rfl
  refine ⟨⟨⟨0, .empty s.buffer.capacity.toNat⟩, s.consumers.map .create⟩, ?_, ?_⟩
  · simp only [start, hvalid, hhistory, hnames, Except.mapError, ok_bind]
  constructor
  case count_eq => rfl
  case intact => exact .empty hpos hfit
  case settings_eq =>
    rw [List.map_map]
    exact List.map_id s.consumers
  case inStep =>
    intro c hc
    obtain ⟨settings, hsettings, rfl⟩ := List.mem_map.mp hc
    exact ⟨[], Consumer.create_inStep (hfits settings hsettings)⟩

/-- If there is no room for the slots a run ends before its first action, as the reservation does. -/
theorem perform_eq_error {failure : Failure} (hvalid : s.validate = .ok ())
    (hroom : memory.reserve s.buffer.capacity.toNat Sample.size = .error failure) (clock : Nat → Timestamp) (actions : List Action) :
    perform memory s clock actions = .error (.creation failure) := by
  obtain ⟨hbuffer, hpos, -⟩ := Settings.fits_of_validate hvalid
  have hhistory : (History.ofValidSettings memory Sample.size s.buffer : Except Failure (History Sample)) = .error failure := by
    rw [History.ofValidSettings_eq hbuffer, History.create_eq hpos, hroom]
    rfl
  simp only [perform, start, hvalid, hhistory, Except.mapError, ok_bind]
  rfl

/-! ## Actions -/

namespace State.Reached

/-- A write goes on with the samples and leaves the consumers alone. -/
theorem act_write (hr : st.Reached s clock n) (hmore : n < lastWord) :
    ∃ st', act clock st .write = .ok st' ∧ st'.Reached s clock (n + 1) := by
  obtain rfl := hr.count_eq
  obtain ⟨history, hwrite, hintact⟩ := Producer.write_eq_ok hr.intact hmore
  refine ⟨{ st with produced := ⟨st.produced.count + 1, history⟩ }, ?_, rfl, hintact, hr.settings_eq, ?_⟩
  · simp only [act, hwrite, Except.mapError, ok_bind]
  · intro c hc
    obtain ⟨batches, hs⟩ := hr.inStep c hc
    exact ⟨batches, hs.mono (Nat.le_succ _)⟩

/-- A poll leaves the history and the other consumers alone. -/
theorem act_poll (hr : st.Reached s clock n) (i : Nat) :
    ∃ st', act clock st (.poll i) = .ok st' ∧ st'.Reached s clock n := by
  cases hi : st.consumers[i]? with
  | none =>
    refine ⟨st, ?_, hr⟩
    simp only [act, hi]
  | some c =>
    obtain ⟨batches, hs⟩ := hr.inStep c (List.mem_of_getElem? hi)
    have hlength : (Producer.written clock n).length = n := Producer.length_written
    rw [← hlength] at hs
    obtain ⟨polled, hpoll, -, -, hsettings, hs'⟩ := hs.poll hr.intact
    refine ⟨{ st with consumers := st.consumers.set i polled.consumer }, ?_, hr.count_eq, hr.intact, ?_, ?_⟩
    · simp only [act, hi, hpoll, Except.mapError, ok_bind]
    · rw [← hr.settings_eq]
      exact map_set_of_eq hi hsettings
    · intro c' hc'
      rcases List.mem_or_eq_of_mem_set hc' with hc' | rfl
      · exact hr.inStep c' hc'
      · rw [hlength] at hs'
        exact ⟨_, hs'⟩

/-- Any actions lead to a state with their writes added. -/
theorem actAll (hr : st.Reached s clock n) (actions : List Action) (hfew : n + actions.count .write ≤ lastWord) :
    ∃ st', Run.actAll clock st actions = .ok st' ∧ st'.Reached s clock (n + actions.count .write) := by
  induction actions generalizing st n with
  | nil => exact ⟨st, rfl, hr⟩
  | cons a rest ih =>
    cases a with
    | write =>
      rw [List.count_cons_self] at hfew ⊢
      obtain ⟨st₁, hact, hr₁⟩ := hr.act_write (by omega)
      obtain ⟨st₂, hrest, hr₂⟩ := ih hr₁ (by omega)
      refine ⟨st₂, ?_, ?_⟩
      · rw [Run.actAll, hact, ok_bind, hrest]
      · rwa [Nat.add_assoc, Nat.add_comm 1] at hr₂
    | poll i =>
      rw [List.count_cons_of_ne (by simp)] at hfew ⊢
      obtain ⟨st₁, hact, hr₁⟩ := hr.act_poll i
      obtain ⟨st₂, hrest, hr₂⟩ := ih hr₁ hfew
      refine ⟨st₂, ?_, hr₂⟩
      rw [Run.actAll, hact, ok_bind, hrest]

end State.Reached

/-! ## The end of a run -/

/-- Consumers in step drain a history one after the other, each to its final report. -/
theorem reports_eq_ok {h : History Sample} {capacity : Nat} {past : List Sample} (hi : Intact h capacity past)
    {consumers : List Consumer} (hs : ∀ c ∈ consumers, ∃ batches, c.InStep capacity past.length batches) :
    ∃ rs, reports h consumers = .ok rs ∧
      List.Forall₂ (fun c r => r.FinalFor c capacity past.length) (consumers.map Consumer.settings) rs := by
  induction consumers with
  | nil => exact ⟨[], rfl, .nil⟩
  | cons c rest ih =>
    obtain ⟨batches, hc⟩ := hs c List.mem_cons_self
    obtain ⟨drained, hdrain, hdrains⟩ := hc.tracks.drain hi.records hi.few hi.numbered
    obtain ⟨hsettings, hc', hcaught⟩ := hc.drains hi hdrains
    obtain ⟨rs, hrest, hfinals⟩ := ih fun c hc => hs c (List.mem_cons_of_mem _ hc)
    have hfinal := hc'.finalFor hcaught
    rw [hsettings] at hfinal
    refine ⟨drained.consumer.report :: rs, ?_, .cons hfinal hfinals⟩
    simp only [reports, hdrain, hrest, Except.mapError, ok_bind]

/-- The order that timers give has all writes of the producer in it. -/
theorem count_write_schedule (s : Settings) : (schedule s).count .write = s.producer.samples.toNat := by
  have hpolls (low high : Nat) : (pollsBetween s low high).count .write = 0 := by
    rw [List.count_eq_zero]
    intro hmem
    obtain ⟨worker, -, hpoll⟩ := List.mem_flatMap.mp hmem
    nomatch List.eq_of_mem_replicate hpoll
  have hone (k : Nat) :
      (Action.write :: if k + 1 < s.producer.samples.toNat then
        pollsBetween s (k * s.producer.intervalMs.toNat) ((k + 1) * s.producer.intervalMs.toNat) else []).count .write = 1 := by
    split
    · rw [List.count_cons_self, hpolls]
    · rfl
  simp only [schedule, List.count_flatMap, Function.comp_def, hone, List.map_const', List.sum_replicate_nat,
    List.length_range, Nat.mul_one]

/-- Of valid settings with names for the workers, a run gives reports just as there is room for the slots. Without room it ends as
the reservation does, before its first action. With room every order of the producer's writes and the consumers' polls, that of
undisturbed timers among them, gives one final report for each configured consumer, in the order of configuration. -/
theorem final_reports (hvalid : s.validate = .ok ()) (hnames : checkNames (s.consumers.map ConsumerSettings.name) = .ok ())
    (memory : Memory) (clock : Nat → Timestamp) :
    (∀ failure, memory.reserve s.buffer.capacity.toNat Sample.size = .error failure → ∀ actions,
      perform memory s clock actions = .error (.creation failure)) ∧
    (memory.reserve s.buffer.capacity.toNat Sample.size = .ok () → ∀ actions : List Action,
      actions.count .write = s.producer.samples.toNat →
      ∃ rs, perform memory s clock actions = .ok rs ∧
        List.Forall₂ (fun c r => r.FinalFor c s.buffer.capacity.toNat s.producer.samples.toNat) s.consumers rs) ∧
    ∃ actions, scheduled memory s clock = perform memory s clock actions ∧ actions.count .write = s.producer.samples.toNat := by
  refine ⟨fun failure hroom actions => perform_eq_error hvalid hroom clock actions, ?_,
    schedule s, scheduled_eq_perform memory s clock, count_write_schedule s⟩
  intro hroom actions hwrites
  have hfew : 0 + actions.count .write ≤ lastWord := by
    rw [hwrites, Nat.zero_add]
    exact Nat.le_of_lt_succ s.producer.samples.toNat_lt
  obtain ⟨st, hstart, hr⟩ := start_reached hvalid hnames hroom clock
  obtain ⟨st', hact, hr'⟩ := hr.actAll actions hfew
  obtain ⟨rs, hreports, hfinals⟩ := reports_eq_ok hr'.intact (by simpa using hr'.inStep)
  rw [hr'.settings_eq, Producer.length_written, Nat.zero_add, hwrites] at hfinals
  refine ⟨rs, ?_, hfinals⟩
  rw [perform, hstart, ok_bind, finish, hact, ok_bind, hreports]

/-- Five samples in as many slots, for two consumers that take any batch and one that takes pairs. -/
def mixedSettings : Settings where
  buffer := ⟨5⟩
  producer := ⟨1, 5⟩
  consumers := [⟨"all", 2, .continuous, false, 1⟩, ⟨"newest", 1, .windowed, false, 1⟩, ⟨"pairs", 2, .continuous, true, 1⟩]
  log := .standard

/-- Polls before, between and after the writes. -/
def mixedActions : List Action :=
  [.poll 0, .write, .poll 0, .poll 1, .write, .poll 2, .write, .write, .write, .poll 1]

/-- A memory that grants no more than 160 bytes at once. -/
def scarceMemory : Memory := ⟨fun bytes => decide (bytes ≤ 160)⟩

/-- Where polls and writes are mixed all three reports come; the reader of pairs lacks one sample at most. Five slots just fit into
a scarce memory, and with one byte less there no report comes. -/
theorem final_reports_of_mixed_polls :
    mixedSettings.validate = .ok () ∧ checkNames (mixedSettings.consumers.map ConsumerSettings.name) = .ok () ∧
      scarceMemory.reserve mixedSettings.buffer.capacity.toNat Sample.size = .ok () ∧
      mixedActions.count .write = mixedSettings.producer.samples.toNat ∧
      (∃ all newest pairs, perform scarceMemory mixedSettings (fun _ => .epoch) mixedActions = .ok [all, newest, pairs] ∧
        all.name = "all" ∧ all.last = some 4 ∧ all.gaps = 0 ∧ all.skipped = 0 ∧ newest.name = "newest" ∧
        newest.last = some 4 ∧ pairs.name = "pairs" ∧ pairs.received = pairs.batches * 2 ∧
        ∃ left, pairs.next + left = 5 ∧ left < 2) ∧
      perform ⟨fun bytes => decide (bytes < 160)⟩ mixedSettings (fun _ => .epoch) mixedActions =
        .error (.creation (.notGranted 160)) := by
  have hvalid : mixedSettings.validate = .ok () := by decide
  have hnames : checkNames (mixedSettings.consumers.map ConsumerSettings.name) = .ok () := by decide +kernel
  have hwrites : mixedActions.count .write = mixedSettings.producer.samples.toNat := by decide
  have hroom : scarceMemory.reserve mixedSettings.buffer.capacity.toNat Sample.size = .ok () := by decide
  obtain ⟨-, hgranted, -⟩ := final_reports hvalid hnames scarceMemory (fun _ => .epoch)
  obtain ⟨hrefused, -, -⟩ := final_reports hvalid hnames ⟨fun bytes => decide (bytes < 160)⟩ (fun _ => .epoch)
  obtain ⟨rs, hrun, hfinals⟩ := hgranted hroom mixedActions hwrites
  obtain _ | ⟨hall, _ | ⟨hnewest, _ | ⟨hpairs, ⟨⟩⟩⟩⟩ := hfinals
  obtain ⟨hgaps, hskipped⟩ := hall.nothing_skipped rfl (Nat.le_refl 5)
  refine ⟨hvalid, hnames, hroom, hwrites, ?_, hrefused _ (by decide) mixedActions⟩
  exact ⟨_, _, _, hrun, hall.name_eq, hall.last_of_inexact rfl, hgaps, hskipped, hnewest.name_eq, hnewest.last_of_inexact rfl,
    hpairs.name_eq, hpairs.received_of_exact rfl, hpairs.left_of_exact rfl⟩

/-- Settings that pass validation, with more slots than there are addresses for them. -/
def boundlessSettings : Settings where
  buffer := ⟨18446744073709551615⟩
  producer := ⟨1, 2⟩
  consumers := [⟨"one", 3, .continuous, false, 3600000⟩]
  log := .standard

/-- Validation alone does not promise reports: of these settings no run gives any, even if memory grants all that can be addressed. -/
theorem final_reports_of_any_capacity_false :
    ¬∀ (s : Settings) (clock : Nat → Timestamp) (actions : List Action), s.validate = .ok () →
      checkNames (s.consumers.map ConsumerSettings.name) = .ok () →
      actions.count .write = s.producer.samples.toNat →
      ∃ rs, perform .boundless s clock actions = .ok rs ∧
        List.Forall₂ (fun c r => r.FinalFor c s.buffer.capacity.toNat s.producer.samples.toNat) s.consumers rs := by
  intro h
  have hvalid : boundlessSettings.validate = .ok () := by decide
  have hroom : Memory.boundless.reserve boundlessSettings.buffer.capacity.toNat Sample.size = .error .unaddressable := by decide
  obtain ⟨rs, hrun, -⟩ := h boundlessSettings (fun _ => .epoch) [.write, .write] hvalid (by decide +kernel) (by decide)
  rw [perform_eq_error hvalid hroom] at hrun
  nomatch hrun

end Run

end Lookback
