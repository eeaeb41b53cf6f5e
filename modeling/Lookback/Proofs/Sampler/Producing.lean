import Lookback.Proofs.History.Rollover
import Lookback.Proofs.Sampler.Courses
import Lookback.Proofs.Sampler.Written
import Lookback.Proofs.Time.Ticks

/-!
# What a producer leaves behind

A producer writes one sample for each tick that is granted to it, until it has written as many as it is set to or its stop signal
is given. Either way it leaves a clean beginning of its series: the samples numbered from zero, without a gap, as many as the less
of the two numbers says (`Producer.quota`), and the signal given.

It comes to the same whether the number of ticks is known beforehand (`writeWhile_eq`) or turns out look by look (`writeOnTicks_eq`):
both loops are one insertion of the samples that are due. On its timer no tick is granted after the signal, yet the sample of the
tick granted last may be written after it (`inserts_nothing_after_signal_false`).
-/

namespace Lookback

/-- The timer grants so many ticks and then answers that its stop signal was given; without a number it grants all that are
`wanted`. -/
def Timer.Grants (t : Timer) (looks : List Look) (wanted : Nat) : Option Nat → Prop
  | some ticks =>
    (t.perform looks (List.replicate (ticks + 1) .tick)).map (fun b => b.ticked.goesOn) = List.replicate ticks true ++ [false]
  | none => (t.perform looks (List.replicate wanted .tick)).map (fun b => b.ticked.goesOn) = List.replicate wanted true

namespace Timer

variable {t : Timer} {looks rest : List Look} {wanted : Nat} {ticks : Option Nat}

/-- The first of the ticks wanted is refused, or it is granted and counts towards them. -/
theorem Grants.cases (h : t.Grants looks (wanted + 1) ticks) :
    ∃ ticked, t.tick looks = .ok (some ticked) ∧ (ticked.goesOn = false ∧ ticks = some 0 ∨
      ticked.goesOn = true ∧ ∃ later, ticked.timer.Grants ticked.looks wanted later ∧ ticks = later.map (· + 1)) := by
  by_cases hover : ∃ ticked, t.tick looks = .ok (some ticked)
  case neg =>
    cases ticks with
    | none => simp [Grants, List.replicate_succ, perform_tick_of_open hover] at h
    | some ticks => simp [Grants, List.replicate_succ, perform_tick_of_open hover] at h
  case pos =>
    obtain ⟨ticked, htick⟩ := hover
    refine ⟨ticked, htick, ?_⟩
    match ticks with
    | none =>
      simp only [Grants, List.replicate_succ, perform_tick_of_some htick, List.map_cons, List.cons.injEq] at h
      exact Or.inr ⟨h.1, none, h.2, rfl⟩
    | some 0 =>
      simp only [Grants, List.replicate_succ, perform_tick_of_some htick, List.map_cons, List.replicate_zero, List.nil_append,
        List.cons.injEq] at h
      exact Or.inl ⟨h.1, rfl⟩
    | some (ticks + 1) =>
      rw [Grants, List.replicate_succ (n := ticks + 1), perform_tick_of_some htick, List.map_cons,
        List.replicate_succ (n := ticks) (a := true), List.cons_append, List.cons.injEq] at h
      exact Or.inr ⟨h.1, some ticks, h.2, rfl⟩

/-- A timer whose first look shows the signal grants no tick, if the clock can tell when the next one would be due. -/
theorem grants_of_killed {l set : Look} (hkilled : l.killed = true) (htold : set.now + t.wait ≤ lastMoment) (wanted : Nat) :
    t.Grants (l :: set :: rest) wanted (some 0) := by
  have htick : t.tick (l :: set :: rest) = .ok (some ⟨false, { t with due := set.now + t.wait }, set.now, rest⟩) := by
    rw [tick_of_set (waitUntil_cons_killed hkilled), momentAfter_eq_ok htold, ok_bind]
    rfl
  simp [Grants, perform_tick_of_some htick, perform]

end Timer

namespace Producer

variable {clock : Nat → Timestamp} {p : Produced} {n left : Nat}

/-- Samples that a producer writes, from one number on. -/
def writtenFrom (clock : Nat → Timestamp) (first n : Nat) : List Sample :=
  (List.range' first n).map fun k => .synthetic k.toUInt64 (clock k)

theorem writtenFrom_zero : writtenFrom clock 0 n = written clock n := by
  rw [writtenFrom, written, List.range_eq_range']

/-- The number of samples that are written of those `wanted`, where so many ticks are granted, or no number bounds them. -/
def quota (wanted : Nat) : (ticks : Option Nat) → Nat
  | some ticks => min wanted ticks
  | none => wanted

theorem quota_zero (ticks : Option Nat) : quota 0 ticks = 0 := by
  cases ticks with
  | none => rfl
  | some ticks => exact Nat.zero_min ticks

theorem quota_succ (wanted : Nat) (ticks : Option Nat) : quota (wanted + 1) (ticks.map (· + 1)) = quota wanted ticks + 1 := by
  cases ticks with
  | none => rfl
  | some ticks => exact Nat.succ_min_succ wanted ticks

theorem quota_le (wanted : Nat) (ticks : Option Nat) : quota wanted ticks ≤ wanted := by
  cases ticks with
  | none => exact Nat.le_refl wanted
  | some ticks => exact Nat.min_le_left wanted ticks

/-- Writes the samples of the next numbers all at once. -/
def writeMany (clock : Nat → Timestamp) (n : Nat) (p : Produced) : Except Failure Produced := do
  let history ← p.history.insertMany (writtenFrom clock p.count n)
  .ok ⟨p.count + n, history⟩

theorem writeMany_zero : writeMany clock 0 p = .ok p :=
  rfl

/-- A write, and then the others. -/
theorem writeMany_succ : writeMany clock (n + 1) p = (do let p ← write clock p; writeMany clock n p) := by
  simp only [writeMany, write, writtenFrom, List.range'_succ, List.map_cons, History.insertMany, History.insert, Ring.insertMany]
  cases p.history.ring.insert (.synthetic p.count.toUInt64 (clock p.count)) with
  | error failure => rfl
  | ok ring =>
    simp only [ok_bind]
    cases ring.insertMany ((List.range' (p.count + 1) n).map fun k => .synthetic k.toUInt64 (clock k)) with
    | error failure => rfl
    | ok ring => rw [ok_bind, ok_bind, ok_bind, Nat.add_right_comm, Nat.add_assoc]

/-- Where the ticks up to a number are granted and no others, the samples of these ticks are written. -/
theorem writeWhile_eq {granted : Nat → Bool} {ticks : Option Nat}
    (hgranted : ∀ k, granted k = ticks.all fun ticks => decide (k < p.count + ticks)) :
    writeWhile clock granted left p = writeMany clock (quota left ticks) p := by
  induction left generalizing p ticks with
  | zero => rw [writeWhile, quota_zero, writeMany_zero]
  | succ left ih =>
    have hfirst := hgranted p.count
    obtain rfl | ⟨later, rfl⟩ : ticks = some 0 ∨ ∃ later : Option Nat, ticks = later.map (· + 1) := by
      match ticks with
      | none => exact Or.inr ⟨none, rfl⟩
      | some 0 => exact Or.inl rfl
      | some (ticks + 1) => exact Or.inr ⟨some ticks, rfl⟩
    · have hrefused : granted p.count = false := by simpa using hfirst
      rw [writeWhile, hrefused, quota, Nat.min_zero, writeMany_zero]
      rfl
    · have hgrantedFirst : granted p.count = true := by
        cases later <;> simpa using hfirst
      rw [writeWhile, hgrantedFirst, if_pos rfl, quota_succ, writeMany_succ]
      unfold write
      cases p.history.insert (.synthetic p.count.toUInt64 (clock p.count)) with
      | error failure => rfl
      | ok history =>
        refine ih fun k => ?_
        rw [hgranted k]
        cases later with
        | none => rfl
        | some later => simp [Nat.add_assoc, Nat.add_comm 1]

/-- The timer of a producer can always be made. -/
theorem timer_eq (settings : ProducerSettings) (handle created : Nat) :
    timer settings handle created = .ok ⟨handle, settings.intervalMs.toNat * nanosPerMilli, created⟩ :=
  rfl

/-- The samples of the ticks that a timer grants are written. -/
theorem writeOnTicks_eq {c : Course} {t : Timer} {looks : List Look} {ticks : Option Nat} (hgrants : t.Grants looks left ticks) :
    ∃ moments, writeOnTicks clock left t looks c =
      (do let p ← writeMany clock (quota left ticks) c.produced; .ok (some ⟨p, moments⟩)) := by
  induction left generalizing c t looks ticks with
  | zero =>
    refine ⟨c.moments, ?_⟩
    rw [writeOnTicks, quota_zero, writeMany_zero, ok_bind]
  | succ left ih =>
    obtain ⟨ticked, htick, ⟨hstops, rfl⟩ | ⟨hgoes, later, hlater, rfl⟩⟩ := hgrants.cases
    · refine ⟨c.moments ++ (looks.take (looks.length - ticked.looks.length)).map .look, ?_⟩
      rw [writeOnTicks, htick, quota, Nat.min_zero, writeMany_zero, ok_bind]
      simp only [hstops, Bool.false_eq_true, if_false]
    · rw [writeOnTicks, htick, quota_succ, writeMany_succ]
      simp only [hgoes, if_true]
      cases write clock c.produced with
      | error failure => exact ⟨[], rfl⟩
      | ok p => exact ih hlater

/-- The number of ticks granted to a producer: none if its signal was given beforehand, and without a bound if it never is. -/
def ticksGranted (killedAfter : Option Nat) (signal : Signal) : Option Nat := if signal.killed then some 0 else killedAfter

/-- What is written from some moment on is at most the sample of one number, and of one tick: it was granted by a look before that
moment which did not show the stop signal. After that look, the one that set the next tick is all there was before the write. -/
def OnlyGrantedBefore (before after : List Moment) (n : Nat) : Prop :=
  writesOf after = [] ∨ ∃ earlier woken set later, woken.killed = false ∧ writesOf later = [] ∧
    (before = earlier ++ [.look woken] ∧ after = .look set :: .wrote n :: later ∨
      before = earlier ++ [.look woken, .look set] ∧ after = .wrote n :: later)

/-- Wherever the counter of a history stands and whatever edits were made of it, and however many ticks are granted: a producer
inserts the samples numbered from zero, as many as it is set to or as there are ticks, whichever is less. It tells their number,
the counter goes on by it, and the signal is given afterwards. This holds if the number of ticks is known beforehand, and on a
timer of its own if the number turns out by its looks; a timer whose first look shows the signal grants none.

The samples are written in order between looks. From whatever moment on all looks show the signal, no tick is granted, and nothing
is written but the last sample, if its tick was granted right before. -/
theorem inserts_granted_samples {capacity start : Nat} (hpos : 0 < capacity) (hfit : capacity ≤ lastWord)
    (hstart : start ≤ lastWord) (es : List (History.Edit Sample)) (settings : ProducerSettings) (clock : Nat → Timestamp)
    (ticks : Option Nat) :
    ∃ h h' n, (History.startingAt capacity start).edits es = .ok h ∧ n = quota settings.samples.toNat ticks ∧
      h.insertMany (written clock n) = .ok h' ∧ Sample.numbers (written clock n) = List.range n ∧
      h'.cursor = (h.cursor + n) % (lastWord + 1) ∧
      (∀ killedAfter signal, ticksGranted killedAfter signal = ticks →
        run settings clock killedAfter signal h = .ok (⟨n, h'⟩, ⟨true⟩)) ∧
      ∀ handle created, ∃ t, timer settings handle created = .ok t ∧
        (∀ looks signal, t.Grants looks settings.samples.toNat ticks →
          ∃ moments, runOnTimer settings clock handle created looks signal h = .ok (some (⟨⟨n, h'⟩, moments⟩, ⟨true⟩)) ∧
            looksOf moments <+: looks ∧ writesOf moments = List.range n ∧
            ∀ before after, moments = before ++ after → (∀ l ∈ looksOf after, l.killed = true) →
              OnlyGrantedBefore before after (n - 1)) ∧
        ∀ shown set rest, shown.killed = true → set.now + t.wait ≤ lastMoment →
          t.Grants (shown :: set :: rest) settings.samples.toNat (some 0) := by
  obtain ⟨h, hedits, -, hrec⟩ := History.edits_eq_ok hpos hfit hstart es
  obtain ⟨n, hn⟩ : ∃ n, n = quota settings.samples.toNat ticks := ⟨_, rfl⟩
  obtain ⟨ring, hinsert, -, hrec'⟩ := hrec.insertMany (written clock n)
  have hmany : h.insertMany (written clock n) = .ok ⟨ring⟩ := by
    rw [History.insertMany, hinsert, ok_bind]
  have hwritten : writeMany clock n ⟨0, h⟩ = .ok ⟨n, ⟨ring⟩⟩ := by
    rw [writeMany, writtenFrom_zero, hmany, ok_bind, Nat.zero_add]
  refine ⟨h, ⟨ring⟩, n, hedits, hn, hmany, ?_, ?_, ?_, fun handle created => ⟨_, timer_eq settings handle created, ?_, ?_⟩⟩
  · have hfew : n ≤ lastWord := by
      rw [hn]
      exact Nat.le_trans (quota_le _ _) (Nat.le_of_lt_succ settings.samples.toNat_lt)
    have hnumbered : Numbered (written clock n) := written_numbered hfew
    rwa [Numbered, length_written] at hnumbered
  · have hcursor := hrec.written_append hrec'
    rwa [length_written] at hcursor
  · rintro killedAfter signal hticks
    have hgranted : ∀ k, (match killedAfter with
        | some ticks => !signal.killed && decide (k < ticks)
        | none => !signal.killed) = ticks.all fun ticks => decide (k < 0 + ticks) := by
      intro k
      rw [← hticks]
      cases hsignal : signal.killed <;> cases killedAfter <;> simp [ticksGranted, hsignal]
    rw [run, writeWhile_eq hgranted, ← hn, hwritten]
    rfl
  · intro looks signal hgrants
    obtain ⟨moments, hrun⟩ : ∃ moments, writeOnTicks clock _ _ looks ⟨⟨0, h⟩, []⟩ = _ := writeOnTicks_eq hgrants
    rw [← hn, hwritten, ok_bind] at hrun
    obtain ⟨rest, hsound⟩ := sound_of_writeOnTicks (.beginning h looks) hrun
    refine ⟨moments, ?_, ⟨rest, hsound.looks_eq.symm⟩, hsound.writes_eq, fun before after => hsound.late⟩
    rw [runOnTimer, timer_eq, ok_bind, hrun]
    rfl
  · intro shown set rest hkilled htold
    exact Timer.grants_of_killed hkilled htold _

/-- Looks of a timer with one millisecond between its ticks. It is woken too early once, and before the fourth tick by its signal. -/
def stoppedLooks : List Look :=
  [⟨false, 0⟩, ⟨false, 0⟩, ⟨false, 400000⟩, ⟨false, 1000000⟩, ⟨false, 1000000⟩, ⟨false, 2000000⟩, ⟨false, 2000000⟩,
    ⟨true, 2500000⟩, ⟨true, 2500000⟩]

/-- Three of five samples are written before the signal is given, and the counter comes round meanwhile. -/
theorem inserts_granted_samples_until_killed :
    0 < 2 ∧ 2 ≤ lastWord ∧ lastWord - 1 ≤ lastWord ∧ (⟨0, 1000000, 0⟩ : Timer).Grants stoppedLooks 5 (some 3) ∧
      ∃ h h' moments, (History.startingAt 2 (lastWord - 1)).edits [.clear] = .ok h ∧
        h.insertMany (written (fun _ => .epoch) 3) = .ok h' ∧ h'.cursor = 1 ∧
        run ⟨1, 5⟩ (fun _ => .epoch) (some 3) .running h = .ok (⟨3, h'⟩, ⟨true⟩) ∧
        runOnTimer ⟨1, 5⟩ (fun _ => .epoch) 0 0 stoppedLooks .running h = .ok (some (⟨⟨3, h'⟩, moments⟩, ⟨true⟩)) ∧
        writesOf moments = [0, 1, 2] := by
  have hpos : 0 < 2 := by decide
  have hfit : 2 ≤ lastWord := by decide
  have hstart : lastWord - 1 ≤ lastWord := Nat.sub_le _ _
  have hgrants : (⟨0, 1000000, 0⟩ : Timer).Grants stoppedLooks 5 (some 3) := rfl
  obtain ⟨h, h', n, hedits, rfl, hinsert, -, hcursor, hrun, htimer⟩ :=
    inserts_granted_samples hpos hfit hstart [.clear] ⟨1, 5⟩ (fun _ => .epoch) (some 3)
  obtain ⟨t, ht, hruns, -⟩ := htimer 0 0
  obtain rfl : t = ⟨0, 1000000, 0⟩ := (Except.ok.inj ht).symm
  obtain ⟨moments, hruns, -, hwrites, -⟩ := hruns stoppedLooks .running hgrants
  have hcursor' : h'.cursor = 1 := by
    obtain rfl := Except.ok.inj hedits
    exact hcursor
  exact ⟨hpos, hfit, hstart, hgrants, h, h', moments, hedits, hinsert, hcursor', hrun (some 3) .running rfl, hruns, hwrites⟩

/-- Looks of a timer whose signal is given right after it was woken for its first tick. -/
def overtakenLooks : List Look := [⟨false, 0⟩, ⟨true, 0⟩, ⟨true, 1⟩, ⟨true, 1⟩]

/-- The sample of that tick is written after the signal. -/
theorem inserts_nothing_after_signal_false :
    ¬ ∀ (settings : ProducerSettings) (clock : Nat → Timestamp) (handle created : Nat) (looks : List Look) (signal signal' : Signal)
      (h : History Sample) (course : Course),
      runOnTimer settings clock handle created looks signal h = .ok (some (course, signal')) →
      ∀ before after, course.moments = before ++ after → (∀ l ∈ looksOf before, l.killed = false) →
        (∀ l ∈ looksOf after, l.killed = true) → writesOf after = [] := by
  intro hnothing
  obtain ⟨course, hrun, hmoments⟩ : ∃ course,
      runOnTimer ⟨1, 5⟩ (fun _ => .epoch) 0 0 overtakenLooks .running (.startingAt 2 0) = .ok (some (course, ⟨true⟩)) ∧
        course.moments = [.look ⟨false, 0⟩] ++ [.look ⟨true, 0⟩, .wrote 0, .look ⟨true, 1⟩, .look ⟨true, 1⟩] := ⟨_, rfl, rfl⟩
  have hwrites := hnothing ⟨1, 5⟩ (fun _ => .epoch) 0 0 overtakenLooks .running ⟨true⟩ (.startingAt 2 0) course hrun _ _ hmoments
    (by simp [looksOf, Moment.look?]) (by simp [looksOf, Moment.look?])
  cases hwrites

end Producer

end Lookback
