import Lookback.Proofs.Time.Steps

/-!
# A stop signal is sticky, shared and isolated

Whatever steps were taken, in whatever order: a handle tells that its signal was given exactly if it was given through some
handle of its family. A tick that begins afterwards is over with its second look, whatever the time. And as long as nobody gives
the signal, a tick ends when its time has come, whatever was given to other families (`Threads.signal_reaches_family`).

The first of these ticks answers `false` and the second `true`, each provided that the clock can tell the moment one wait after
the tick. Otherwise the tick breaks off, even one that was to answer `false` (`Threads.signal_reaches_any_wait_false`).

The invariant is `Threads.Sound`. Beside signals and timers it says that what a timer saw of its signal was so, and that what it
saw did not end its tick. Once the signal was given, a tick that begins sees nothing else (`Threads.Sound.warned_after`).
-/

namespace Lookback

namespace Threads

/-- Threads are as a transcript says. -/
structure Sound (w : Threads) (T : Transcript) : Prop where
  signals : w.loops.signals.Follows T
  timers : ∀ timer handle, T.Serves timer handle →
    T.Made handle ∧ ∃ t, w.loops.timers[timer]? = some t ∧ t.handle = handle
  busy : ∀ timer looks, w.seen timer = some looks → timer < w.loops.timers.length
  seen : ∀ timer handle looks, T.Serves timer handle → w.seen timer = some looks → ∀ l ∈ looks, l.killed = true →
    T.Killed handle
  ticking : ∀ timer looks t, w.seen timer = some looks → w.loops.timers[timer]? = some t → t.tick looks = .ok none

/-- All that a timer has seen since its tick began is that the signal was given. -/
def Warned (w : Threads) (timer : Nat) : Prop := ∀ looks, w.seen timer = some looks → ∀ l ∈ looks, l.killed = true

variable {w w' : Threads} {T : Transcript} {s : ThreadStep} {a : ThreadAnswer} {timer handle : Nat} {looks : List Look}

theorem next_of_some (h : w.step? s = some (a, w')) : w.next s = w' := by
  rw [next, h]

theorem next_of_none (h : w.step? s = none) : w.next s = w := by
  rw [next, h]

theorem answer_of_some (h : w.step? s = some (a, w')) : w.answer s = some a := by
  rw [answer, h]
  rfl

theorem answer_of_none (h : w.step? s = none) : w.answer s = none := by
  rw [answer, h]
  rfl

namespace Sound

theorem fresh (now : Nat) : (fresh now).Sound [] where
  signals := Signals.none_follows
  timers := by simp [Transcript.Serves]
  busy := by simp [Threads.fresh]
  seen := by simp [Threads.fresh]
  ticking := by simp [Threads.fresh]

/-- What the signal of a timer tells. -/
theorem signal (h : w.Sound T) (hserves : T.Serves timer handle) :
    ∃ t signal, w.loops.timers[timer]? = some t ∧ w.loops.signals.get? t.handle = some signal ∧
      (signal.killed = true ↔ T.Killed handle) := by
  obtain ⟨hmade, t, ht, rfl⟩ := h.timers timer handle hserves
  obtain ⟨signal, hsignal, hkilled⟩ := h.signals.get? hmade
  exact ⟨t, signal, ht, hsignal, hkilled⟩

/-- A step that is refused changes nothing. -/
theorem refused (h : w.Sound T) (s : ThreadStep) : w.Sound (T ++ [(s, none)]) := by
  have hserves : ∀ timer handle, Transcript.Serves (T ++ [(s, none)]) timer handle → T.Serves timer handle := by
    intro timer handle hserves
    refine (Transcript.serves_snoc.mp hserves).resolve_right ?_
    rintro ⟨s', -, he⟩
    exact nomatch (Prod.mk.inj he).2
  constructor
  case signals => exact h.signals.snoc fun c a he => nomatch (Prod.mk.inj he).2
  case timers =>
    intro timer handle hlater
    obtain ⟨hmade, ht⟩ := h.timers timer handle (hserves timer handle hlater)
    exact ⟨hmade.mono _, ht⟩
  case busy => exact h.busy
  case seen =>
    intro timer handle looks hlater hlooks l hl hkilled
    exact (h.seen timer handle looks (hserves timer handle hlater) hlooks l hl hkilled).mono _
  case ticking => exact h.ticking

/-- A step that is taken changes what its answer says. -/
theorem taken (h : w.Sound T) (hstep : w.step? s = some (a, w')) : w'.Sound (T ++ [(s, some a)]) := by
  have hfollows := follows_of_step? hstep h.signals
  have hkeeps := keeps_of_step? hstep
  -- the timer made by this step is not in the middle of a tick
  have hnew : ∀ timer handle, Transcript.Serves (T ++ [(s, some a)]) timer handle →
      T.Serves timer handle ∨ a = .command (.number timer) ∧ s.timerOf? = some handle := by
    intro timer handle hserves
    refine (Transcript.serves_snoc.mp hserves).imp_right ?_
    rintro ⟨s', hs', he⟩
    obtain ⟨rfl, ha⟩ := Prod.mk.inj he
    exact ⟨(Option.some.inj ha).symm, hs'⟩
  constructor
  case signals => exact hfollows
  case timers =>
    intro timer handle hserves
    rcases hnew timer handle hserves with hold | ⟨rfl, hs⟩
    · obtain ⟨hmade, t, ht, rfl⟩ := h.timers timer handle hold
      exact ⟨hmade.mono _, hkeeps timer t ht⟩
    · obtain ⟨⟨signal, hsignal⟩, rfl, t, rfl, htimers⟩ := timers_of_step? hstep hs
      refine ⟨hfollows.made_of_get? hsignal, t, ?_, rfl⟩
      rw [htimers, List.getElem?_concat_length]
  case busy =>
    intro timer looks hlooks
    have hbefore : timer < w.loops.timers.length := by
      rcases seen_of_step? hstep hlooks with hold | ⟨⟨t, ht⟩, -⟩ | ⟨before, -, -, hbefore, -⟩
      · exact h.busy timer looks hold
      · exact (List.getElem?_eq_some_iff.mp ht).1
      · exact h.busy timer before hbefore
    obtain ⟨t, ht, -⟩ := hkeeps timer _ (List.getElem?_eq_getElem hbefore)
    exact (List.getElem?_eq_some_iff.mp ht).1
  case seen =>
    intro timer handle looks hserves hlooks l hl hkilled
    rcases hnew timer handle hserves with hold | ⟨rfl, hs⟩
    · refine Transcript.Killed.mono ?_ _
      rcases seen_of_step? hstep hlooks with hsame | ⟨-, rfl⟩ | ⟨before, t, signal, hbefore, ht, hsignal, rfl, -⟩
      · exact h.seen timer handle looks hold hsame l hl hkilled
      · exact nomatch hl
      · rcases List.mem_append.mp hl with hl | hl
        · exact h.seen timer handle before hold hbefore l hl hkilled
        · obtain rfl := List.mem_singleton.mp hl
          obtain ⟨t', signal', ht', hsignal', hiff⟩ := h.signal hold
          obtain rfl := Option.some.inj (ht.symm.trans ht')
          obtain rfl := Option.some.inj (hsignal.symm.trans hsignal')
          exact hiff.mp hkilled
    · obtain ⟨-, rfl, -⟩ := timers_of_step? hstep hs
      rcases seen_of_step? hstep hlooks with hsame | ⟨⟨t, ht⟩, -⟩ | ⟨before, -, -, hbefore, -⟩
      · exact absurd (h.busy _ looks hsame) (Nat.lt_irrefl _)
      · exact absurd (List.getElem?_eq_some_iff.mp ht).1 (Nat.lt_irrefl _)
      · exact absurd (h.busy _ before hbefore) (Nat.lt_irrefl _)
  case ticking =>
    intro timer looks t' hlooks ht'
    have hbusy' : w'.busy timer = true := by rw [Threads.busy, hlooks, Option.isSome_some]
    -- a timer in the middle of a tick stays as it is
    have hsame {t : Timer} {before : List Look} (hbefore : w.seen timer = some before) (ht : w.loops.timers[timer]? = some t) :
        t = t' := by
      have hbusy : w.busy timer = true := by rw [Threads.busy, hbefore, Option.isSome_some]
      exact Option.some.inj ((timer_of_busy hstep hbusy hbusy' ht).symm.trans ht')
    rcases seen_of_step? hstep hlooks with hold | ⟨-, rfl⟩ | ⟨before, t, signal, hbefore, ht, -, -, hopen⟩
    · have ht := List.getElem?_eq_getElem (h.busy timer looks hold)
      obtain rfl := hsame hold ht
      exact h.ticking timer looks _ hold ht
    · exact Timer.tick_of_waiting rfl
    · obtain rfl := hsame hbefore ht
      exact hopen

theorem next (h : w.Sound T) (s : ThreadStep) : (w.next s).Sound (T ++ [(s, w.answer s)]) := by
  cases hstep : w.step? s with
  | none =>
    rw [next_of_none hstep, answer_of_none hstep]
    exact h.refused s
  | some result =>
    obtain ⟨a, w'⟩ := result
    rw [next_of_some hstep, answer_of_some hstep]
    exact h.taken hstep

theorem after (h : w.Sound T) (steps : List ThreadStep) : (w.after steps).Sound (T ++ w.transcript steps) := by
  induction steps generalizing w T with
  | nil =>
    rw [transcript, List.append_nil]
    exact h
  | cons s rest ih =>
    have hrest := ih (h.next s)
    rw [List.append_assoc] at hrest
    exact hrest

/-- Once the signal was given, another look shows it. -/
theorem warned_next (h : w.Sound T) (hserves : T.Serves timer handle) (hkilled : T.Killed handle) (hwarned : w.Warned timer)
    (s : ThreadStep) : (w.next s).Warned timer := by
  cases hstep : w.step? s with
  | none =>
    rw [next_of_none hstep]
    exact hwarned
  | some result =>
    obtain ⟨a, w'⟩ := result
    rw [next_of_some hstep]
    intro looks hlooks l hl
    rcases seen_of_step? hstep hlooks with hsame | ⟨-, rfl⟩ | ⟨before, t, signal, hbefore, ht, hsignal, rfl, -⟩
    · exact hwarned looks hsame l hl
    · exact nomatch hl
    · rcases List.mem_append.mp hl with hl | hl
      · exact hwarned before hbefore l hl
      · obtain rfl := List.mem_singleton.mp hl
        obtain ⟨t', signal', ht', hsignal', hiff⟩ := h.signal hserves
        obtain rfl := Option.some.inj (ht.symm.trans ht')
        obtain rfl := Option.some.inj (hsignal.symm.trans hsignal')
        exact hiff.mpr hkilled

theorem warned_after (h : w.Sound T) (hserves : T.Serves timer handle) (hkilled : T.Killed handle) (hwarned : w.Warned timer)
    (steps : List ThreadStep) : (w.after steps).Warned timer := by
  induction steps generalizing w T with
  | nil => exact hwarned
  | cons s rest ih =>
    exact ih (h.next s) (hserves.mono _) (hkilled.mono _) (h.warned_next hserves hkilled hwarned s)

/-! ### What threads answer -/

theorem isKilled (h : w.Sound T) (hmade : T.Made handle) :
    ∃ flag, w.step? (.command (.isKilled handle)) = some (.command (.flag flag), w) ∧ (flag = true ↔ T.Killed handle) := by
  obtain ⟨signal, hsignal, hkilled⟩ := h.signals.get? hmade
  refine ⟨signal.killed, ?_, hkilled⟩
  simp [step?, LoopCommand.timer?, answered, Loops.run?, hsignal]

/-- A timer can be made with a handle unless the clock cannot tell when its first tick is due. -/
theorem newTimer (h : w.Sound T) (hmade : T.Made handle) (wait : Nat) (immediate : Bool) :
    w.answer (.newTimer handle wait immediate) = some (.command
      (if immediate = false ∧ lastMoment < w.loops.now + wait then .failed .pastClock else .number w.loops.timers.length)) := by
  obtain ⟨signal, hsignal, -⟩ := h.signals.get? hmade
  rw [answer, step?, Loops.addTimer?_eq hsignal]
  split
  · rfl
  · rfl

/-- A tick that nothing disturbs. -/
theorem tick (h : w.Sound T) (hserves : T.Serves timer handle) (hidle : w.seen timer = none) :
    ∃ t goesOn w', w.loops.timers[timer]? = some t ∧
      w.step? (.command (.tick timer)) = some (.command
        (if lastMoment < w'.loops.now + t.wait then .failed .pastClock else .flag goesOn), w') ∧
      (goesOn = false ↔ T.Killed handle) ∧ (T.Killed handle → w'.loops.now = w.loops.now) ∧
      (¬ T.Killed handle → w'.loops.now = max w.loops.now t.due) := by
  obtain ⟨t, signal, ht, hsignal, hkilled⟩ := h.signal hserves
  obtain ⟨a, l', -, htick, hnow, rfl, -, -⟩ := Loops.tick?_eq ht hsignal
  refine ⟨t, !signal.killed, { w with loops := l' }, ht, ?_, ?_, ?_, ?_⟩
  · simp [step?, LoopCommand.timer?, Threads.busy, hidle, answered, Loops.run?, htick]
  · rw [Bool.not_eq_false', hkilled]
  · intro hgiven
    rw [hnow, Loops.wokenAt, if_pos (hkilled.mpr hgiven)]
  · intro hrunning
    rw [hnow, Loops.wokenAt, if_neg (mt hkilled.mp hrunning)]

/-- A tick can begin whenever its timer is not in the middle of another. -/
theorem enter (h : w.Sound T) (hserves : T.Serves timer handle) (hidle : w.seen timer = none) :
    w.answer (.enter timer) = some .done := by
  obtain ⟨t, -, ht, -⟩ := h.signal hserves
  simp [answer, step?, Threads.busy, hidle, ht]

/-- A tick that only saw the signal given is over with its second look. -/
theorem look_of_warned (h : w.Sound T) (hserves : T.Serves timer handle) (hkilled : T.Killed handle) (hwarned : w.Warned timer)
    (hlooks : w.seen timer = some looks) :
    ∃ t, w.loops.timers[timer]? = some t ∧
      w.answer (.look timer) = some (if looks = [] then .awake else w.ending t false) ∧
      (.look timer, some (w.ending t false)) ∈ w.transcript [.look timer, .look timer] := by
  obtain ⟨t, signal, ht, hsignal, hiff⟩ := h.signal hserves
  have hsees := hwarned looks hlooks
  have hsignal' := hiff.mpr hkilled
  have hopen := h.ticking timer looks t hlooks ht
  refine ⟨t, ht, ?_, ?_⟩
  · by_cases hnone : looks = []
    · subst hnone
      rw [look?_of_waiting hlooks ht hsignal rfl, hsignal']
      rfl
    · obtain ⟨rest, hwait⟩ := waitUntil_of_killed hnone hsees
      rw [Timer.rest_of_tick_eq_none hopen hwait] at hwait
      rw [look?_of_over hlooks ht hsignal hwait, if_neg hnone]
      rfl
  · have hmore : ∀ l ∈ looks ++ [⟨signal.killed, w.loops.now⟩], l.killed = true :=
      List.forall_mem_append.mpr ⟨hsees, by simpa using hsignal'⟩
    obtain ⟨rest, hwait⟩ := waitUntil_of_killed (by simp) hmore
    exact ending_of_looks hlooks ht hsignal hopen hwait

/-- As long as the signal was not given, a tick goes on until its time, and the look after that ends it. -/
theorem look_of_running (h : w.Sound T) (hserves : T.Serves timer handle) (hrunning : ¬ T.Killed handle)
    (hlooks : w.seen timer = some looks) :
    ∃ t, w.loops.timers[timer]? = some t ∧
      w.answer (.look timer) =
        some (if ∃ l ∈ looks, t.due ≤ l.now then w.ending t true else if t.due ≤ w.loops.now then .awake else .asleep) ∧
      (t.due ≤ w.loops.now → (.look timer, some (w.ending t true)) ∈ w.transcript [.look timer, .look timer]) := by
  obtain ⟨t, signal, ht, hsignal, hiff⟩ := h.signal hserves
  have hsees : ∀ l ∈ looks, l.killed = false := by
    intro l hl
    rw [← Bool.not_eq_true]
    exact fun hkilled => hrunning (h.seen timer handle looks hserves hlooks l hl hkilled)
  have hsignal' : signal.killed = false := by
    rw [← Bool.not_eq_true]
    exact fun hkilled => hrunning (hiff.mp hkilled)
  have hopen := h.ticking timer looks t hlooks ht
  refine ⟨t, ht, ?_, ?_⟩
  · by_cases hdue : ∃ l ∈ looks, t.due ≤ l.now
    · obtain ⟨now, rest, hwait⟩ := waitUntil_of_due hsees hdue
      rw [Timer.rest_of_tick_eq_none hopen hwait] at hwait
      rw [look?_of_over hlooks ht hsignal hwait, if_pos hdue]
      rfl
    · have hwait : waitUntil t.due looks = none :=
        waitUntil_eq_none_iff.mpr fun l hl => ⟨hsees l hl, Nat.lt_of_not_le fun hl' => hdue ⟨l, hl, hl'⟩⟩
      rw [look?_of_waiting hlooks ht hsignal hwait, hsignal', Bool.false_or, if_neg hdue]
      simp only [decide_eq_true_eq]
  · intro hdue
    have hmore : ∀ l ∈ looks ++ [⟨signal.killed, w.loops.now⟩], l.killed = false :=
      List.forall_mem_append.mpr ⟨hsees, by simpa using hsignal'⟩
    obtain ⟨now, rest, hwait⟩ := waitUntil_of_due hmore ⟨_, List.mem_append_right _ List.mem_cons_self, hdue⟩
    exact ending_of_looks hlooks ht hsignal hopen hwait

end Sound

/-- Whatever steps were taken, with any number of signals, handles and timers in any number of threads:

* a handle tells that the signal was given exactly if it was given through some handle of its family, and a timer can be made with
  it unless the clock cannot tell when its first tick is due;
* a timer that is not in the middle of a tick can begin one, and if nothing happens meanwhile it answers `false` exactly if the
  signal was given to its family, and then takes no time, and otherwise waits for its time;
* a tick begun after that is awake with its first look and over with its second, whatever else happens, and answers `false`;
* as long as the signal was not given to the family of its timer, a tick goes on until a look shows its time, is over with the
  next look, and answers `true`;
* and instead of answering `false` or `true`, a tick breaks off if the clock cannot tell the moment one wait after it. -/
theorem signal_reaches_family (now : Nat) (steps : List ThreadStep) :
    let w := (fresh now).after steps
    let T : Transcript := (fresh now).transcript steps
    (∀ handle, T.Made handle →
      (∃ flag, w.step? (.command (.isKilled handle)) = some (.command (.flag flag), w) ∧ (flag = true ↔ T.Killed handle)) ∧
      ∀ wait immediate, w.answer (.newTimer handle wait immediate) = some (.command
        (if immediate = false ∧ lastMoment < w.loops.now + wait then .failed .pastClock
          else .number w.loops.timers.length))) ∧
    ∀ timer handle, T.Serves timer handle →
      (w.seen timer = none →
        w.answer (.enter timer) = some .done ∧
        (∃ t goesOn w', w.loops.timers[timer]? = some t ∧
          w.step? (.command (.tick timer)) = some (.command
            (if lastMoment < w'.loops.now + t.wait then .failed .pastClock else .flag goesOn), w') ∧
          (goesOn = false ↔ T.Killed handle) ∧ (T.Killed handle → w'.loops.now = w.loops.now) ∧
          (¬ T.Killed handle → w'.loops.now = max w.loops.now t.due)) ∧
        (T.Killed handle → ∀ later looks, (w.after later).seen timer = some looks →
          ∃ t, (w.after later).loops.timers[timer]? = some t ∧
            (w.after later).answer (.look timer) = some (if looks = [] then .awake else (w.after later).ending t false) ∧
            (.look timer, some ((w.after later).ending t false)) ∈ (w.after later).transcript [.look timer, .look timer])) ∧
      (¬ T.Killed handle → ∀ looks, w.seen timer = some looks →
        ∃ t, w.loops.timers[timer]? = some t ∧
          w.answer (.look timer) =
            some (if ∃ l ∈ looks, t.due ≤ l.now then w.ending t true else if t.due ≤ w.loops.now then .awake else .asleep) ∧
          (t.due ≤ w.loops.now → (.look timer, some (w.ending t true)) ∈ w.transcript [.look timer, .look timer])) := by
  intro w T
  have h : w.Sound T := (Sound.fresh now).after steps
  refine ⟨fun handle hmade => ⟨h.isKilled hmade, h.newTimer hmade⟩, fun timer handle hserves => ⟨fun hidle => ⟨?_, ?_, ?_⟩, ?_⟩⟩
  · exact h.enter hserves hidle
  · exact h.tick hserves hidle
  · intro hkilled later looks hlooks
    have hwarned : w.Warned timer := by
      intro looks hlooks
      rw [hidle] at hlooks
      exact nomatch hlooks
    have hlater := h.warned_after hserves hkilled hwarned later
    exact (h.after later).look_of_warned (hserves.mono _) (hkilled.mono _) hlater hlooks
  · intro hrunning looks hlooks
    exact h.look_of_running hserves hrunning hlooks

/-- Two signals and a copy of the first handle. A timer is made with the copy and another with the handle to the second signal,
and that one begins a tick. Then the first signal is given. -/
def twoFamilies : List ThreadStep :=
  [.command .newSignal, .command .newSignal, .command (.copyHandle 0), .newTimer 2 10 false, .newTimer 1 10 false, .enter 1,
    .command (.kill 0)]

/-- The copy tells that the signal was given, and its timer does not wait any more. The other timer goes to sleep. Another timer
with the copy may have any wait if it starts at once, but not one past the clock if it does not. -/
theorem signal_reaches_copy_only :
    ∃ w T, w = (fresh 0).after twoFamilies ∧ T = (fresh 0).transcript twoFamilies ∧
      Transcript.Made T 2 ∧ Transcript.Serves T 0 2 ∧ Transcript.Killed T 2 ∧ w.seen 0 = none ∧
      Transcript.Serves T 1 1 ∧ ¬ Transcript.Killed T 1 ∧ w.seen 1 = some [] ∧
      w.step? (.command (.isKilled 2)) = some (.command (.flag true), w) ∧
      w.answer (.newTimer 2 lastMoment true) = some (.command (.number 2)) ∧
      w.answer (.newTimer 2 (lastMoment + 1) false) = some (.command (.failed .pastClock)) ∧
      (w.after [.enter 0]).answer (.look 0) = some .awake ∧
      (.look 0, some (.returned false)) ∈ (w.after [.enter 0]).transcript [.look 0, .look 0] ∧
      w.answer (.look 1) = some .asleep := by
  have htranscript : (fresh 0).transcript twoFamilies =
      [(.command .newSignal, some (.command (.number 0))), (.command .newSignal, some (.command (.number 1))),
        (.command (.copyHandle 0), some (.command (.number 2))), (.newTimer 2 10 false, some (.command (.number 0))),
        (.newTimer 1 10 false, some (.command (.number 1))), (.enter 1, some .done),
        (.command (.kill 0), some (.command .done))] := rfl
  obtain ⟨hhandles, htimers⟩ := signal_reaches_family 0 twoFamilies
  have hmade : Transcript.Made ((fresh 0).transcript twoFamilies) 2 := by
    simp [htranscript, Transcript.Made, Transcript.Copied, Transcript.Granted]
  have hfirst : Transcript.Serves ((fresh 0).transcript twoFamilies) 0 2 :=
    ⟨.newTimer 2 10 false, rfl, by simp [htranscript]⟩
  have hsecond : Transcript.Serves ((fresh 0).transcript twoFamilies) 1 1 :=
    ⟨.newTimer 1 10 false, rfl, by simp [htranscript]⟩
  have hkilled : Transcript.Killed ((fresh 0).transcript twoFamilies) 2 := by
    refine ⟨0, by simp [htranscript, Transcript.Granted], .rel _ _ ?_⟩
    simp [htranscript, Transcript.Copied, Transcript.Granted]
  have hrunning : ¬ Transcript.Killed ((fresh 0).transcript twoFamilies) 1 := by
    rintro ⟨g, hg, hfamily⟩
    obtain rfl : g = 0 := by simpa [htranscript, Transcript.Granted] using hg
    -- what is copied is not the handle to the second signal
    have hagree := hfamily.agree (fun i => decide (i = 1)) fun i j hij => by
      obtain ⟨rfl, rfl⟩ : i = 0 ∧ j = 2 := by simpa [htranscript, Transcript.Copied, Transcript.Granted] using hij
      rfl
    exact absurd hagree (by decide)
  obtain ⟨⟨flag, htold, hflag⟩, hnew⟩ := hhandles 2 hmade
  obtain rfl := hflag.mpr hkilled
  obtain ⟨hidle, -⟩ := htimers 0 2 hfirst
  obtain ⟨-, -, hstopped⟩ := hidle rfl
  obtain ⟨t, ht, hawake, hreturned⟩ := hstopped hkilled [.enter 0] [] rfl
  obtain rfl : t = ⟨2, 10, 10⟩ := (Option.some.inj ht).symm
  obtain ⟨-, hgoing⟩ := htimers 1 1 hsecond
  obtain ⟨t, ht, hasleep, -⟩ := hgoing hrunning [] rfl
  obtain rfl : t = ⟨1, 10, 10⟩ := (Option.some.inj ht).symm
  have hnow : ((fresh 0).after twoFamilies).loops.now = 0 := rfl
  have hatOnce := hnew lastMoment true
  have hlater := hnew (lastMoment + 1) false
  rw [if_neg (fun hlate => absurd hlate.1 (by decide))] at hatOnce
  rw [hnow, Nat.zero_add, if_pos ⟨rfl, Nat.lt_succ_self _⟩] at hlater
  exact ⟨_, _, rfl, rfl, hmade, hfirst, hkilled, rfl, hsecond, hrunning, rfl, htold, hatOnce, hlater, hawake, hreturned, hasleep⟩

/-- The longest wait there is. -/
def longestWait : Nat := lastWord * nanosPerSecond + 999999999

/-- A timer with that wait, due at once, and its signal given. -/
def stoppedForLong : List ThreadStep := [.command .newSignal, .newTimer 0 longestWait true, .command (.kill 0)]

/-- The tick of this timer does not answer `false`, since the clock cannot tell when the next one would be due. -/
theorem signal_reaches_any_wait_false :
    ¬ ∀ (now : Nat) (steps : List ThreadStep) (timer handle : Nat), Transcript.Serves ((fresh now).transcript steps) timer handle →
      ((fresh now).after steps).seen timer = none → Transcript.Killed ((fresh now).transcript steps) handle →
      ((fresh now).after steps).answer (.command (.tick timer)) = some (.command (.flag false)) := by
  intro hanswers
  have htranscript : (fresh 0).transcript stoppedForLong =
      [(.command .newSignal, some (.command (.number 0))), (.newTimer 0 longestWait true, some (.command (.number 0))),
        (.command (.kill 0), some (.command .done))] := rfl
  have hserves : Transcript.Serves ((fresh 0).transcript stoppedForLong) 0 0 :=
    ⟨.newTimer 0 longestWait true, rfl, by simp [htranscript]⟩
  have hkilled : Transcript.Killed ((fresh 0).transcript stoppedForLong) 0 :=
    ⟨0, by simp [htranscript, Transcript.Granted], .refl 0⟩
  have htick : ((fresh 0).after stoppedForLong).answer (.command (.tick 0)) = some (.command (.failed .pastClock)) := rfl
  have hfalse := hanswers 0 stoppedForLong 0 0 hserves rfl hkilled
  rw [htick] at hfalse
  cases hfalse

end Threads

end Lookback
