import Lookback.Proofs.Time.Families
import Lookback.Proofs.Time.Waits

/-!
# What a step can do

Each kind of step is inverted once (`Threads.command_eq_some` to `Threads.look?_eq_some`). From this follows what steps do to
signals, to timers and to what waiting timers have seen. Signals go on as the transcript says (`Threads.follows_of_step?`); a
timer stays with its handle, and a new one comes last (`Threads.timers_of_step?`); in the middle of a tick it stays altogether as
it is (`Threads.timer_of_busy`), and what it has seen grows by looks only, each showing its signal as it is
(`Threads.seen_of_step?`).

The other way round, a look is told by what was seen before it (`Threads.look?_of_over`, `Threads.look?_of_waiting`), and a tick
with nothing else happening waits for its time unless the signal was given (`Loops.tick?_eq`). Whatever ended its wait, a tick
breaks off if the clock cannot tell when the next one is due (`Threads.ending`).
-/

namespace Lookback

namespace Loops

variable {l l' : Loops} {c : LoopCommand} {a : LoopAnswer} {t : Timer} {signal : Signal} {timer handle wait : Nat}
  {immediate : Bool} {T : Transcript}

/-- A timer is made with a handle to a signal, unless the clock cannot tell when its first tick is due. -/
theorem addTimer?_eq (hsignal : l.signals.get? handle = some signal) (wait : Nat) (immediate : Bool) :
    l.addTimer? handle wait immediate =
      if immediate = false ∧ lastMoment < l.now + wait then some (.failed .pastClock, l)
      else some (.number l.timers.length,
        { l with timers := l.timers ++ [⟨handle, wait, if immediate then l.now else l.now + wait⟩] }) := by
  simp only [addTimer?, hsignal, Option.bind_eq_bind, Option.bind_some, Timer.create_eq]
  by_cases hpast : immediate = false ∧ lastMoment < l.now + wait
  · rw [if_pos hpast, if_pos hpast]
  · rw [if_neg hpast, if_neg hpast]

theorem addTimer?_eq_some (h : l.addTimer? handle wait immediate = some (a, l')) :
    (∃ signal, l.signals.get? handle = some signal) ∧
      (a = .failed .pastClock ∧ l' = l ∨
        ∃ t, t.handle = handle ∧ a = .number l.timers.length ∧ l' = { l with timers := l.timers ++ [t] }) := by
  obtain ⟨signal, hsignal, -⟩ := Option.bind_eq_some_iff.mp h
  rw [addTimer?_eq hsignal] at h
  refine ⟨⟨signal, hsignal⟩, ?_⟩
  split at h
  · obtain ⟨rfl, rfl⟩ := Prod.mk.inj (Option.some.inj h)
    exact Or.inl ⟨rfl, rfl⟩
  · obtain ⟨rfl, rfl⟩ := Prod.mk.inj (Option.some.inj h)
    exact Or.inr ⟨_, rfl, rfl, rfl⟩

theorem setWait?_eq_some (h : l.setWait? timer wait = some (a, l')) :
    ∃ t, l.timers[timer]? = some t ∧ l' = { l with timers := l.timers.set timer (t.setWait wait) } := by
  obtain ⟨t, ht, h⟩ := Option.bind_eq_some_iff.mp h
  obtain ⟨rfl, rfl⟩ := Prod.mk.inj (Option.some.inj h)
  exact ⟨t, ht, rfl⟩

/-- What is seen if nothing disturbs a wait ends it, and leaves the look that sets the next tick. -/
theorem waitUntil_looks (now due : Nat) (killed : Bool) :
    waitUntil due (looks now due killed) =
      some (if killed then .stopped else .due (max now due), [⟨killed, wokenAt now due killed⟩]) := by
  cases killed with
  | true => rfl
  | false =>
    rcases Nat.lt_or_ge now due with hearly | hdue
    · simp [looks, waitUntil, wokenAt, Nat.not_le_of_lt hearly, Nat.max_eq_right (Nat.le_of_lt hearly)]
    · simp [looks, waitUntil, wokenAt, hdue]

/-- A tick that nothing disturbs goes on until its time, or ends at once if the signal was given. It answers which of them it was,
unless the clock cannot tell when the next one is due. -/
theorem tick?_eq (ht : l.timers[timer]? = some t) (hsignal : l.signals.get? t.handle = some signal) :
    ∃ a l' t', l.tick? timer = some (a, l') ∧ l'.now = wokenAt l.now t.due signal.killed ∧
      a = (if lastMoment < l'.now + t.wait then .failed .pastClock else .flag (!signal.killed)) ∧
      t'.handle = t.handle ∧ l' = { l with now := l'.now, timers := l.timers.set timer t' } := by
  have htick := Timer.tick_of_set (waitUntil_looks l.now t.due signal.killed)
  rcases Nat.lt_or_ge lastMoment (wokenAt l.now t.due signal.killed + t.wait) with hpast | htold
  · rw [momentAfter_eq_error hpast, error_bind] at htick
    have hsame : l.timers.set timer t = l.timers := by
      obtain ⟨hlt, rfl⟩ := List.getElem?_eq_some_iff.mp ht
      exact List.set_getElem_self hlt
    refine ⟨.failed .pastClock, { l with now := wokenAt l.now t.due signal.killed }, t, ?_, rfl, (if_pos hpast).symm, rfl, ?_⟩
    · simp [tick?, ht, hsignal, htick]
    · rw [hsame]
  · have hgoes (killed : Bool) (now : Nat) : decide ((if killed then Wake.stopped else .due now) ≠ .stopped) = !killed := by
      cases killed <;> rfl
    rw [momentAfter_eq_ok htold, ok_bind, hgoes] at htick
    let t' : Timer := { t with due := wokenAt l.now t.due signal.killed + t.wait }
    refine ⟨.flag (!signal.killed), { l with now := wokenAt l.now t.due signal.killed, timers := l.timers.set timer t' }, t', ?_,
      rfl, (if_neg (Nat.not_lt_of_le htold)).symm, rfl, rfl⟩
    simp [tick?, ht, hsignal, htick, t']

theorem tick?_eq_some (h : l.tick? timer = some (a, l')) :
    ∃ t t' now, l.timers[timer]? = some t ∧ t'.handle = t.handle ∧
      l' = { l with now := now, timers := l.timers.set timer t' } := by
  obtain ⟨t, ht, hrest⟩ := Option.bind_eq_some_iff.mp h
  obtain ⟨signal, hsignal, -⟩ := Option.bind_eq_some_iff.mp hrest
  obtain ⟨a', l'', t', htick, -, -, hsame, hl⟩ := tick?_eq ht hsignal
  obtain ⟨-, rfl⟩ := Prod.mk.inj (Option.some.inj (htick.symm.trans h))
  exact ⟨t, t', _, ht, hsame, hl⟩

/-- Every timer stays where it is, with its handle. -/
def Keeps (l l' : Loops) : Prop :=
  ∀ (timer : Nat) (t : Timer), l.timers[timer]? = some t → ∃ t', l'.timers[timer]? = some t' ∧ t'.handle = t.handle

theorem Keeps.of_timers (h : l'.timers = l.timers) : l.Keeps l' := by
  intro timer t ht
  rw [h]
  exact ⟨t, ht, rfl⟩

theorem Keeps.of_append (h : l'.timers = l.timers ++ [t]) : l.Keeps l' := by
  intro timer t' ht'
  rw [h, List.getElem?_append_left (List.getElem?_eq_some_iff.mp ht').1]
  exact ⟨t', ht', rfl⟩

/-- A timer may be replaced by one with its handle. -/
theorem Keeps.of_set {t' : Timer} (h : l'.timers = l.timers.set timer t') (ht : l.timers[timer]? = some t)
    (hsame : t'.handle = t.handle) : l.Keeps l' := by
  intro i s hs
  rw [h, List.getElem?_set]
  by_cases hi : timer = i
  · subst hi
    obtain rfl := Option.some.inj (ht.symm.trans hs)
    rw [if_pos rfl, if_pos (List.getElem?_eq_some_iff.mp hs).1]
    exact ⟨t', rfl, hsame⟩
  · rw [if_neg hi]
    exact ⟨s, hs, rfl⟩

/-- A command works on the signals, or leaves them and keeps the timers. -/
theorem run?_cases (h : l.run? c = some (a, l')) :
    c.onSignals = true ∧ l'.timers = l.timers ∨ c.onSignals = false ∧ l'.signals = l.signals ∧ l.Keeps l' := by
  cases c with
  | newSignal =>
    obtain ⟨rfl, rfl⟩ := Prod.mk.inj (Option.some.inj h)
    exact Or.inl ⟨rfl, rfl⟩
  | copyHandle handle | kill handle =>
    obtain ⟨signals, -, h⟩ := Option.bind_eq_some_iff.mp h
    obtain ⟨rfl, rfl⟩ := Prod.mk.inj (Option.some.inj h)
    exact Or.inl ⟨rfl, rfl⟩
  | isKilled handle =>
    obtain ⟨signal, -, h⟩ := Option.bind_eq_some_iff.mp h
    obtain ⟨rfl, rfl⟩ := Prod.mk.inj (Option.some.inj h)
    exact Or.inr ⟨rfl, rfl, .of_timers rfl⟩
  | newTimer handle millis immediate =>
    obtain ⟨-, ⟨-, rfl⟩ | ⟨t, -, -, rfl⟩⟩ := addTimer?_eq_some h
    · exact Or.inr ⟨rfl, rfl, .of_timers rfl⟩
    · exact Or.inr ⟨rfl, rfl, .of_append rfl⟩
  | tick timer =>
    obtain ⟨t, t', now, ht, hsame, rfl⟩ := tick?_eq_some h
    exact Or.inr ⟨rfl, rfl, .of_set rfl ht hsame⟩
  | setWait timer millis =>
    obtain ⟨t, ht, rfl⟩ := setWait?_eq_some h
    exact Or.inr ⟨rfl, rfl, .of_set rfl ht rfl⟩
  | waitMillis timer =>
    obtain ⟨t, -, h⟩ := Option.bind_eq_some_iff.mp h
    obtain ⟨rfl, rfl⟩ := Prod.mk.inj (Option.some.inj h)
    exact Or.inr ⟨rfl, rfl, .of_timers rfl⟩
  | resetWatch | elapsed =>
    obtain ⟨rfl, rfl⟩ := Prod.mk.inj (Option.some.inj h)
    exact Or.inr ⟨rfl, rfl, .of_timers rfl⟩

/-- Whatever a command answers, signals go on as that says. -/
theorem follows_of_run? (h : l.run? c = some (a, l')) (hfollows : l.signals.Follows T) :
    l'.signals.Follows (T.grant c a) := by
  rcases run?_cases h with ⟨hc, -⟩ | ⟨hc, hsame, -⟩
  · cases c with
    | newSignal =>
      obtain ⟨rfl, rfl⟩ := Prod.mk.inj (Option.some.inj h)
      exact hfollows.create
    | copyHandle handle =>
      obtain ⟨signals, hcopy, h⟩ := Option.bind_eq_some_iff.mp h
      obtain ⟨rfl, rfl⟩ := Prod.mk.inj (Option.some.inj h)
      exact hfollows.copy hcopy
    | kill handle =>
      obtain ⟨signals, hkill, h⟩ := Option.bind_eq_some_iff.mp h
      obtain ⟨rfl, rfl⟩ := Prod.mk.inj (Option.some.inj h)
      exact hfollows.kill hkill
    | _ => exact nomatch hc
  · rw [hsame]
    refine hfollows.snoc fun c' a' he => ?_
    obtain rfl := ThreadStep.command.inj (Prod.mk.inj he).1
    exact hc

theorem keeps_of_run? (h : l.run? c = some (a, l')) : l.Keeps l' := by
  rcases run?_cases h with ⟨-, hsame⟩ | ⟨-, -, hkeeps⟩
  · exact .of_timers hsame
  · exact hkeeps

/-- A command leaves every timer alone that it does not work on. -/
theorem timer_of_run? (h : l.run? c = some (a, l')) (hc : c.timer? ≠ some timer) (ht : l.timers[timer]? = some t) :
    l'.timers[timer]? = some t := by
  have hother {i : Nat} (hi : (some i : Option Nat) ≠ some timer) (t' : Timer) : (l.timers.set i t')[timer]? = some t := by
    rw [List.getElem?_set_ne fun heq => hi (congrArg some heq), ht]
  cases c with
  | newSignal | copyHandle _ | kill _ =>
    obtain ⟨-, hsame⟩ | ⟨hc', -⟩ := run?_cases h
    · rw [hsame, ht]
    · cases hc'
  | isKilled handle =>
    obtain ⟨signal, -, h⟩ := Option.bind_eq_some_iff.mp h
    obtain ⟨-, rfl⟩ := Prod.mk.inj (Option.some.inj h)
    exact ht
  | newTimer handle millis immediate =>
    obtain ⟨-, ⟨-, rfl⟩ | ⟨t', -, -, rfl⟩⟩ := addTimer?_eq_some h
    · exact ht
    · rw [List.getElem?_append_left (List.getElem?_eq_some_iff.mp ht).1, ht]
  | tick i =>
    obtain ⟨-, t', now, -, -, rfl⟩ := tick?_eq_some h
    exact hother hc t'
  | setWait i millis =>
    obtain ⟨t', -, rfl⟩ := setWait?_eq_some h
    exact hother hc _
  | waitMillis i =>
    obtain ⟨t', -, h⟩ := Option.bind_eq_some_iff.mp h
    obtain ⟨-, rfl⟩ := Prod.mk.inj (Option.some.inj h)
    exact ht
  | resetWatch | elapsed =>
    obtain ⟨-, rfl⟩ := Prod.mk.inj (Option.some.inj h)
    exact ht

end Loops

namespace Threads

variable {w w' : Threads} {c : LoopCommand} {s : ThreadStep} {a : ThreadAnswer} {t : Timer} {signal : Signal} {wake : Wake}
  {looks rest : List Look} {handle timer wait nanos : Nat} {immediate : Bool} {T : Transcript}

@[simp] theorem seen_setSeen_self (seen : Option (List Look)) : (w.setSeen timer seen).seen timer = seen := if_pos rfl

theorem seen_setSeen_of_ne {i : Nat} (hi : timer ≠ i) (seen : Option (List Look)) :
    (w.setSeen i seen).seen timer = w.seen timer := if_neg hi

/-! ### Inversion -/

theorem answered_eq_some {result : Option (LoopAnswer × Loops)} (h : w.answered result = some (a, w')) :
    ∃ b l', result = some (b, l') ∧ a = .command b ∧ w' = { w with loops := l' } := by
  obtain ⟨⟨b, l'⟩, hresult, h⟩ := Option.bind_eq_some_iff.mp h
  obtain ⟨rfl, rfl⟩ := Prod.mk.inj (Option.some.inj h)
  exact ⟨b, l', hresult, rfl, rfl⟩

theorem command_eq_some (h : w.step? (.command c) = some (a, w')) :
    c.timer?.any w.busy = false ∧
      ∃ b l', w.loops.run? c = some (b, l') ∧ a = .command b ∧ w' = { w with loops := l' } := by
  rw [step?] at h
  split at h
  · cases h
  · rename_i hidle
    exact ⟨Bool.eq_false_iff.mpr hidle, answered_eq_some h⟩

theorem newTimer_eq_some (h : w.step? (.newTimer handle wait immediate) = some (a, w')) :
    (∃ signal, w.loops.signals.get? handle = some signal) ∧
      (a = .command (.failed .pastClock) ∧ w' = w ∨
        ∃ t, t.handle = handle ∧ a = .command (.number w.loops.timers.length) ∧
          w' = { w with loops := { w.loops with timers := w.loops.timers ++ [t] } }) := by
  obtain ⟨b, l', hadd, rfl, rfl⟩ := answered_eq_some h
  obtain ⟨hsignal, ⟨rfl, rfl⟩ | ⟨t, ht, rfl, rfl⟩⟩ := Loops.addTimer?_eq_some hadd
  · exact ⟨hsignal, Or.inl ⟨rfl, rfl⟩⟩
  · exact ⟨hsignal, Or.inr ⟨t, ht, rfl, rfl⟩⟩

theorem setWait_eq_some (h : w.step? (.setWait timer wait) = some (a, w')) :
    w.busy timer = false ∧ ∃ t, w.loops.timers[timer]? = some t ∧
      w' = { w with loops := { w.loops with timers := w.loops.timers.set timer (t.setWait wait) } } := by
  rw [step?] at h
  split at h
  · cases h
  · rename_i hidle
    obtain ⟨b, l', hset, -, rfl⟩ := answered_eq_some h
    obtain ⟨t, ht, rfl⟩ := Loops.setWait?_eq_some hset
    exact ⟨Bool.eq_false_iff.mpr hidle, t, ht, rfl⟩

theorem pass_eq_some (h : w.step? (.pass nanos) = some (a, w')) :
    ∃ now, a = .done ∧ w' = { w with loops := { w.loops with now } } := by
  obtain ⟨now, -, h⟩ := Option.bind_eq_some_iff.mp h
  obtain ⟨rfl, rfl⟩ := Prod.mk.inj (Option.some.inj h)
  exact ⟨now, rfl, rfl⟩

theorem enter_eq_some (h : w.step? (.enter timer) = some (a, w')) :
    (∃ t, w.loops.timers[timer]? = some t) ∧ w' = w.setSeen timer (some []) := by
  rw [step?] at h
  split at h
  · exact nomatch h
  · obtain ⟨t, ht, h⟩ := Option.bind_eq_some_iff.mp h
    exact ⟨⟨t, ht⟩, (Prod.mk.inj (Option.some.inj h)).2.symm⟩

/-- A look ends the tick, or is kept with those before it. -/
theorem look?_eq_some (h : w.look? timer = some (a, w')) :
    ∃ looks t signal, w.seen timer = some looks ∧ w.loops.timers[timer]? = some t ∧
      w.loops.signals.get? t.handle = some signal ∧
      ((∃ t', t'.handle = t.handle ∧
          w' = { w with loops := { w.loops with timers := w.loops.timers.set timer t' } }.setSeen timer none) ∨
        w' = w.setSeen timer none ∨
        t.tick (looks ++ [⟨signal.killed, w.loops.now⟩]) = .ok none ∧
          w' = w.setSeen timer (some (looks ++ [⟨signal.killed, w.loops.now⟩]))) := by
  obtain ⟨looks, hlooks, h⟩ := Option.bind_eq_some_iff.mp h
  obtain ⟨t, ht, h⟩ := Option.bind_eq_some_iff.mp h
  obtain ⟨signal, hsignal, h⟩ := Option.bind_eq_some_iff.mp h
  refine ⟨looks, t, signal, hlooks, ht, hsignal, ?_⟩
  dsimp only at h
  split at h
  case h_1 ticked hticked =>
    obtain ⟨rfl, rfl⟩ := Prod.mk.inj (Option.some.inj h)
    exact Or.inl ⟨ticked.timer, Timer.tick_handle hticked, rfl⟩
  case h_2 hopen =>
    obtain ⟨rfl, rfl⟩ := Prod.mk.inj (Option.some.inj h)
    exact Or.inr (Or.inr ⟨hopen, rfl⟩)
  case h_3 =>
    obtain ⟨rfl, rfl⟩ := Prod.mk.inj (Option.some.inj h)
    exact Or.inr (Or.inl rfl)

/-! ### What steps keep -/

/-- Whatever a step answers, signals go on as that says. -/
theorem follows_of_step? (h : w.step? s = some (a, w')) (hfollows : w.loops.signals.Follows T) :
    w'.loops.signals.Follows (T ++ [(s, some a)]) := by
  cases s with
  | command c =>
    obtain ⟨-, b, l', hrun, rfl, rfl⟩ := command_eq_some h
    exact Loops.follows_of_run? hrun hfollows
  | newTimer handle wait immediate =>
    obtain ⟨-, ⟨-, rfl⟩ | ⟨t, -, -, rfl⟩⟩ := newTimer_eq_some h
    · exact hfollows.snoc nofun
    · exact hfollows.snoc nofun
  | setWait timer wait =>
    obtain ⟨-, t, -, rfl⟩ := setWait_eq_some h
    exact hfollows.snoc nofun
  | pass nanos =>
    obtain ⟨now, -, rfl⟩ := pass_eq_some h
    exact hfollows.snoc nofun
  | enter timer =>
    obtain ⟨-, rfl⟩ := enter_eq_some h
    exact hfollows.snoc nofun
  | look timer =>
    obtain ⟨looks, t, signal, -, -, -, ⟨t', -, rfl⟩ | rfl | ⟨-, rfl⟩⟩ := look?_eq_some h
    · exact hfollows.snoc nofun
    · exact hfollows.snoc nofun
    · exact hfollows.snoc nofun

theorem keeps_of_step? (h : w.step? s = some (a, w')) : w.loops.Keeps w'.loops := by
  cases s with
  | command c =>
    obtain ⟨-, b, l', hrun, -, rfl⟩ := command_eq_some h
    exact Loops.keeps_of_run? hrun
  | newTimer handle wait immediate =>
    obtain ⟨-, ⟨-, rfl⟩ | ⟨t, -, -, rfl⟩⟩ := newTimer_eq_some h
    · exact .of_timers rfl
    · exact .of_append rfl
  | setWait timer wait =>
    obtain ⟨-, t, ht, rfl⟩ := setWait_eq_some h
    exact .of_set rfl ht rfl
  | pass nanos =>
    obtain ⟨now, -, rfl⟩ := pass_eq_some h
    exact .of_timers rfl
  | enter timer =>
    obtain ⟨-, rfl⟩ := enter_eq_some h
    exact .of_timers rfl
  | look timer =>
    obtain ⟨looks, t, signal, -, ht, -, ⟨t', hsame, rfl⟩ | rfl | ⟨-, rfl⟩⟩ := look?_eq_some h
    · exact .of_set rfl ht hsame
    · exact .of_timers rfl
    · exact .of_timers rfl

/-- A new timer comes last, and its handle refers to a signal. -/
theorem timers_of_step? (h : w.step? s = some (.command (.number timer), w')) (hs : s.timerOf? = some handle) :
    (∃ signal, w'.loops.signals.get? handle = some signal) ∧ timer = w.loops.timers.length ∧
      ∃ t, t.handle = handle ∧ w'.loops.timers = w.loops.timers ++ [t] := by
  cases s with
  | command c =>
    obtain ⟨-, b, l', hrun, hb, rfl⟩ := command_eq_some h
    obtain rfl := ThreadAnswer.command.inj hb
    cases c with
    | newTimer i millis immediate =>
      obtain rfl : i = handle := Option.some.inj hs
      obtain ⟨hsignal, ⟨hfailed, -⟩ | ⟨t, ht, hnumber, rfl⟩⟩ := Loops.addTimer?_eq_some hrun
      · cases hfailed
      · exact ⟨hsignal, LoopAnswer.number.inj hnumber, t, ht, rfl⟩
    | _ => cases hs
  | newTimer i wait immediate =>
    obtain rfl : i = handle := Option.some.inj hs
    obtain ⟨hsignal, ⟨hfailed, -⟩ | ⟨t, ht, hnumber, rfl⟩⟩ := newTimer_eq_some h
    · cases hfailed
    · exact ⟨hsignal, LoopAnswer.number.inj (ThreadAnswer.command.inj hnumber), t, ht, rfl⟩
  | setWait timer wait | pass nanos | enter timer | look timer => cases hs

/-- What a timer has seen after a step: what it had, nothing if its tick begins, or one look more that did not end the tick. -/
theorem seen_of_step? (h : w.step? s = some (a, w')) (hseen : w'.seen timer = some looks) :
    w.seen timer = some looks ∨ (∃ t, w.loops.timers[timer]? = some t) ∧ looks = [] ∨
      ∃ before t signal, w.seen timer = some before ∧ w.loops.timers[timer]? = some t ∧
        w.loops.signals.get? t.handle = some signal ∧ looks = before ++ [⟨signal.killed, w.loops.now⟩] ∧
        t.tick looks = .ok none := by
  cases s with
  | command c =>
    obtain ⟨-, b, l', -, -, rfl⟩ := command_eq_some h
    exact Or.inl hseen
  | newTimer handle wait immediate =>
    obtain ⟨-, ⟨-, rfl⟩ | ⟨t, -, -, rfl⟩⟩ := newTimer_eq_some h
    · exact Or.inl hseen
    · exact Or.inl hseen
  | setWait timer wait =>
    obtain ⟨-, t, -, rfl⟩ := setWait_eq_some h
    exact Or.inl hseen
  | pass nanos =>
    obtain ⟨now, -, rfl⟩ := pass_eq_some h
    exact Or.inl hseen
  | enter i =>
    obtain ⟨ht, rfl⟩ := enter_eq_some h
    by_cases hi : timer = i
    · subst hi
      rw [seen_setSeen_self] at hseen
      exact Or.inr (Or.inl ⟨ht, (Option.some.inj hseen).symm⟩)
    · rw [seen_setSeen_of_ne hi] at hseen
      exact Or.inl hseen
  | look i =>
    obtain ⟨before, t, signal, hbefore, ht, hsignal, hleft⟩ := look?_eq_some h
    by_cases hi : timer = i
    · subst hi
      obtain ⟨t', -, rfl⟩ | rfl | ⟨hopen, rfl⟩ := hleft
      · rw [seen_setSeen_self] at hseen
        cases hseen
      · rw [seen_setSeen_self] at hseen
        cases hseen
      · rw [seen_setSeen_self] at hseen
        obtain rfl := Option.some.inj hseen
        exact Or.inr (Or.inr ⟨before, t, signal, hbefore, ht, hsignal, rfl, hopen⟩)
    · obtain ⟨t', -, rfl⟩ | rfl | ⟨-, rfl⟩ := hleft
      · rw [seen_setSeen_of_ne hi] at hseen
        exact Or.inl hseen
      · rw [seen_setSeen_of_ne hi] at hseen
        exact Or.inl hseen
      · rw [seen_setSeen_of_ne hi] at hseen
        exact Or.inl hseen

/-- A timer that is in the middle of a tick before a step and after it stays as it is. -/
theorem timer_of_busy (h : w.step? s = some (a, w')) (hbusy : w.busy timer = true) (hbusy' : w'.busy timer = true)
    (ht : w.loops.timers[timer]? = some t) : w'.loops.timers[timer]? = some t := by
  cases s with
  | command c =>
    obtain ⟨hidle, b, l', hrun, -, rfl⟩ := command_eq_some h
    refine Loops.timer_of_run? hrun (fun hc => ?_) ht
    rw [hc, Option.any_some, hbusy] at hidle
    cases hidle
  | newTimer handle wait immediate =>
    obtain ⟨-, ⟨-, rfl⟩ | ⟨t', -, -, rfl⟩⟩ := newTimer_eq_some h
    · exact ht
    · rw [List.getElem?_append_left (List.getElem?_eq_some_iff.mp ht).1, ht]
  | setWait i wait =>
    obtain ⟨hidle, t', -, rfl⟩ := setWait_eq_some h
    have hi : i ≠ timer := by
      rintro rfl
      rw [hbusy] at hidle
      cases hidle
    rw [List.getElem?_set_ne hi, ht]
  | pass nanos =>
    obtain ⟨now, -, rfl⟩ := pass_eq_some h
    exact ht
  | enter i =>
    obtain ⟨-, rfl⟩ := enter_eq_some h
    exact ht
  | look i =>
    obtain ⟨before, t', signal, -, -, -, ⟨t'', -, rfl⟩ | rfl | ⟨-, rfl⟩⟩ := look?_eq_some h
    · have hi : i ≠ timer := by
        rintro rfl
        rw [busy, seen_setSeen_self] at hbusy'
        cases hbusy'
      exact (List.getElem?_set_ne hi).trans ht
    · exact ht
    · exact ht

/-! ### What a look answers -/

/-- What a tick answers that ends now: whether the loop goes on, unless the clock cannot tell when the next tick is due. -/
def ending (w : Threads) (t : Timer) (goesOn : Bool) : ThreadAnswer :=
  if lastMoment < w.loops.now + t.wait then .failed .pastClock else .returned goesOn

/-- Once the wait is over, the next look ends the tick. -/
theorem look?_of_over (hseen : w.seen timer = some looks) (ht : w.loops.timers[timer]? = some t)
    (hsignal : w.loops.signals.get? t.handle = some signal) (hover : waitUntil t.due looks = some (wake, [])) :
    w.answer (.look timer) = some (w.ending t (decide (wake ≠ .stopped))) := by
  have htick := Timer.tick_of_awake hover ⟨signal.killed, w.loops.now⟩
  rcases Nat.lt_or_ge lastMoment (w.loops.now + t.wait) with hpast | htold
  · rw [momentAfter_eq_error hpast, error_bind] at htick
    simp [answer, step?, look?, hseen, ht, hsignal, htick, ending, hpast]
  · rw [momentAfter_eq_ok htold, ok_bind] at htick
    simp [answer, step?, look?, hseen, ht, hsignal, htick, ending, Nat.not_lt_of_le htold]

/-- Before, a look ends the wait if it shows the signal or the time. -/
theorem look?_of_waiting (hseen : w.seen timer = some looks) (ht : w.loops.timers[timer]? = some t)
    (hsignal : w.loops.signals.get? t.handle = some signal) (hwaiting : waitUntil t.due looks = none) :
    w.answer (.look timer) = some (if signal.killed || decide (t.due ≤ w.loops.now) then .awake else .asleep) := by
  have hwait := waitUntil_append_of_none hwaiting [⟨signal.killed, w.loops.now⟩]
  have hone := waitUntil_singleton t.due ⟨signal.killed, w.loops.now⟩
  simp [answer, step?, look?, hseen, ht, hsignal, Timer.tick_of_asleep hwaiting, hwait, hone]

/-- Such a look changes only what its timer has seen. -/
theorem next_look_of_waiting (hseen : w.seen timer = some looks) (ht : w.loops.timers[timer]? = some t)
    (hsignal : w.loops.signals.get? t.handle = some signal) (hwaiting : waitUntil t.due looks = none) :
    w.next (.look timer) = w.setSeen timer (some (looks ++ [⟨signal.killed, w.loops.now⟩])) := by
  simp [next, step?, look?, hseen, ht, hsignal, Timer.tick_of_asleep hwaiting]

/-- A tick is over with two looks, if the first of them would end the wait. -/
theorem ending_of_looks (hseen : w.seen timer = some looks) (ht : w.loops.timers[timer]? = some t)
    (hsignal : w.loops.signals.get? t.handle = some signal) (hopen : t.tick looks = .ok none)
    (hover : waitUntil t.due (looks ++ [⟨signal.killed, w.loops.now⟩]) = some (wake, rest)) :
    (.look timer, some (w.ending t (decide (wake ≠ .stopped)))) ∈ w.transcript [.look timer, .look timer] := by
  rcases Timer.wait_of_tick_eq_none hopen with hwait | ⟨wake', hwait⟩
  · obtain rfl := Timer.rest_of_tick_eq_none (Timer.tick_of_asleep hwait ⟨signal.killed, w.loops.now⟩) hover
    have hsecond := look?_of_over (w := w.setSeen timer (some (looks ++ [⟨signal.killed, w.loops.now⟩])))
      (seen_setSeen_self _) ht hsignal hover
    rw [transcript, transcript, next_look_of_waiting hseen ht hsignal hwait, hsecond]
    exact List.mem_cons_of_mem _ List.mem_cons_self
  · rw [waitUntil_append_of_some hwait] at hover
    obtain ⟨rfl, -⟩ := Prod.mk.inj (Option.some.inj hover)
    rw [transcript, look?_of_over hseen ht hsignal hwait]
    exact List.mem_cons_self

end Threads

end Lookback
