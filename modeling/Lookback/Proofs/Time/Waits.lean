import Lookback.Time.Timer

/-!
# What ends a wait

A wait ends with the first look that shows the stop signal, or a time that has come; where one look shows both the signal
counts. So what ended a wait tells which looks there were (`waitUntil_eq_some`), and as long as it goes on neither was
(`waitUntil_eq_none_iff`). A tick takes one look more than its wait. It answers by what ended the wait, whatever that last look
shows, unless the clock cannot tell when the next tick is due (`Timer.tick_cases`).
-/

namespace Lookback

variable {deadline : Nat} {looks rest : List Look} {wake : Wake} {l : Look}

theorem waitUntil_cons_killed (h : l.killed = true) : waitUntil deadline (l :: looks) = some (.stopped, looks) :=
  if_pos h

theorem waitUntil_cons_due (h : l.killed = false) (h' : deadline ≤ l.now) :
    waitUntil deadline (l :: looks) = some (.due l.now, looks) := by
  rw [waitUntil, h, if_neg Bool.false_ne_true, if_pos h']

theorem waitUntil_cons_asleep (h : l.killed = false) (h' : l.now < deadline) :
    waitUntil deadline (l :: looks) = waitUntil deadline looks := by
  rw [waitUntil, h, if_neg Bool.false_ne_true, if_neg (Nat.not_le_of_lt h')]

/-- What one look can show to a wait. -/
theorem Look.cases (l : Look) (deadline : Nat) :
    l.killed = true ∨ l.killed = false ∧ deadline ≤ l.now ∨ l.killed = false ∧ l.now < deadline := by
  cases l.killed with
  | true => exact Or.inl rfl
  | false => exact Or.inr ((Nat.lt_or_ge l.now deadline).symm.imp (⟨rfl, ·⟩) (⟨rfl, ·⟩))

/-- A wait goes on as long as no look shows the signal or the time. -/
theorem waitUntil_eq_none_iff : waitUntil deadline looks = none ↔ ∀ l ∈ looks, l.killed = false ∧ l.now < deadline := by
  induction looks with
  | nil => simp [waitUntil]
  | cons l looks ih =>
    rw [List.forall_mem_cons, ← ih]
    rcases l.cases deadline with hkilled | ⟨hrunning, hdue⟩ | ⟨hrunning, hearly⟩
    · simp [waitUntil_cons_killed hkilled, hkilled]
    · simp [waitUntil_cons_due hrunning hdue, Nat.not_lt_of_le hdue]
    · simp [waitUntil_cons_asleep hrunning hearly, hrunning, hearly]

/-- A wait is ended by the first look that shows the signal or, without it, a time that has come. -/
theorem waitUntil_eq_some (h : waitUntil deadline looks = some (wake, rest)) :
    ∃ early l, looks = early ++ l :: rest ∧ (∀ e ∈ early, e.killed = false ∧ e.now < deadline) ∧
      (wake = .stopped ∧ l.killed = true ∨ wake = .due l.now ∧ l.killed = false ∧ deadline ≤ l.now) := by
  induction looks with
  | nil => simp [waitUntil] at h
  | cons l looks ih =>
    rcases l.cases deadline with hkilled | ⟨hrunning, hdue⟩ | ⟨hrunning, hearly⟩
    · rw [waitUntil_cons_killed hkilled] at h
      obtain ⟨rfl, rfl⟩ := Prod.mk.inj (Option.some.inj h)
      exact ⟨[], l, rfl, List.forall_mem_nil _, Or.inl ⟨rfl, hkilled⟩⟩
    · rw [waitUntil_cons_due hrunning hdue] at h
      obtain ⟨rfl, rfl⟩ := Prod.mk.inj (Option.some.inj h)
      exact ⟨[], l, rfl, List.forall_mem_nil _, Or.inr ⟨rfl, hrunning, hdue⟩⟩
    · rw [waitUntil_cons_asleep hrunning hearly] at h
      obtain ⟨early, l', rfl, hbefore, hl'⟩ := ih h
      exact ⟨l :: early, l', rfl, List.forall_mem_cons.mpr ⟨⟨hrunning, hearly⟩, hbefore⟩, hl'⟩

/-- A wait that saw nothing but the signal was ended by it. -/
theorem waitUntil_of_killed (hne : looks ≠ []) (h : ∀ l ∈ looks, l.killed = true) :
    ∃ rest, waitUntil deadline looks = some (.stopped, rest) := by
  obtain ⟨l, rest, rfl⟩ := List.exists_cons_of_ne_nil hne
  exact ⟨rest, waitUntil_cons_killed (h l List.mem_cons_self)⟩

/-- A wait that never saw the signal was ended by a time that had come, if any look showed one. -/
theorem waitUntil_of_due (h : ∀ l ∈ looks, l.killed = false) (hdue : ∃ l ∈ looks, deadline ≤ l.now) :
    ∃ now rest, waitUntil deadline looks = some (.due now, rest) := by
  cases hwait : waitUntil deadline looks with
  | none =>
    obtain ⟨l, hl, hl'⟩ := hdue
    exact absurd hl' (Nat.not_le_of_lt (waitUntil_eq_none_iff.mp hwait l hl).2)
  | some woken =>
    obtain ⟨wake, rest⟩ := woken
    obtain ⟨early, l, rfl, -, ⟨-, hkilled⟩ | ⟨rfl, -, -⟩⟩ := waitUntil_eq_some hwait
    · rw [h l (by simp)] at hkilled
      exact nomatch hkilled
    · exact ⟨l.now, rest, rfl⟩

/-- The looks after the end of a wait are left over. -/
theorem waitUntil_append_of_some (h : waitUntil deadline looks = some (wake, rest)) (more : List Look) :
    waitUntil deadline (looks ++ more) = some (wake, rest ++ more) := by
  induction looks with
  | nil => simp [waitUntil] at h
  | cons l looks ih =>
    rw [List.cons_append]
    rcases l.cases deadline with hkilled | ⟨hrunning, hdue⟩ | ⟨hrunning, hearly⟩
    · rw [waitUntil_cons_killed hkilled] at h ⊢
      obtain ⟨rfl, rfl⟩ := Prod.mk.inj (Option.some.inj h)
      rfl
    · rw [waitUntil_cons_due hrunning hdue] at h ⊢
      obtain ⟨rfl, rfl⟩ := Prod.mk.inj (Option.some.inj h)
      rfl
    · rw [waitUntil_cons_asleep hrunning hearly] at h ⊢
      exact ih h

/-- A wait that the looks so far did not end goes on with the looks after them. -/
theorem waitUntil_append_of_none (h : waitUntil deadline looks = none) (more : List Look) :
    waitUntil deadline (looks ++ more) = waitUntil deadline more := by
  induction looks with
  | nil => rfl
  | cons l looks ih =>
    obtain ⟨⟨hrunning, hearly⟩, hlater⟩ := List.forall_mem_cons.mp (waitUntil_eq_none_iff.mp h)
    rw [List.cons_append, waitUntil_cons_asleep hrunning hearly]
    exact ih (waitUntil_eq_none_iff.mpr hlater)

/-- A wait is ended by one look, or goes on. -/
theorem waitUntil_singleton (deadline : Nat) (l : Look) :
    (waitUntil deadline [l]).isSome = (l.killed || decide (deadline ≤ l.now)) := by
  rcases l.cases deadline with hkilled | ⟨hrunning, hdue⟩ | ⟨hrunning, hearly⟩
  · simp [waitUntil_cons_killed hkilled, hkilled]
  · simp [waitUntil_cons_due hrunning hdue, hdue]
  · rw [waitUntil_cons_asleep hrunning hearly, hrunning, decide_eq_false (Nat.not_le_of_lt hearly)]
    rfl

namespace Timer

variable {t : Timer} {ticked : Ticked} {set : Look}

/-! ## Ticks -/

/-- A tick is not over while its wait goes on. -/
theorem tick_of_waiting (h : waitUntil t.due looks = none) : t.tick looks = .ok none := by
  rw [tick, h]

/-- Nor is it with the look that ends the wait. -/
theorem tick_of_woken (h : waitUntil t.due looks = some (wake, [])) : t.tick looks = .ok none := by
  rw [tick, h]

/-- The next look sets the time of the tick after it, if the clock can tell that. -/
theorem tick_of_set (h : waitUntil t.due looks = some (wake, set :: rest)) :
    t.tick looks = (do
      let due ← momentAfter set.now t.wait
      .ok (some ⟨wake ≠ .stopped, { t with due }, set.now, rest⟩)) := by
  rw [tick, h]

/-- What can come of a tick. -/
theorem tick_cases (t : Timer) (looks : List Look) :
    t.tick looks = .ok none ∧ (∀ wake set rest, waitUntil t.due looks ≠ some (wake, set :: rest)) ∨
      ∃ wake set rest, waitUntil t.due looks = some (wake, set :: rest) ∧
        (lastMoment < set.now + t.wait ∧ t.tick looks = .error .pastClock ∨
          set.now + t.wait ≤ lastMoment ∧
            t.tick looks = .ok (some ⟨wake ≠ .stopped, { t with due := set.now + t.wait }, set.now, rest⟩)) := by
  cases hwait : waitUntil t.due looks with
  | none => exact Or.inl ⟨tick_of_waiting hwait, nofun⟩
  | some woken =>
    obtain ⟨wake, rest⟩ := woken
    cases rest with
    | nil => exact Or.inl ⟨tick_of_woken hwait, by simp⟩
    | cons set rest =>
      refine Or.inr ⟨wake, set, rest, rfl, ?_⟩
      rw [tick_of_set hwait]
      rcases Nat.lt_or_ge lastMoment (set.now + t.wait) with hpast | htold
      · rw [momentAfter_eq_error hpast]
        exact Or.inl ⟨hpast, rfl⟩
      · rw [momentAfter_eq_ok htold]
        exact Or.inr ⟨htold, rfl⟩

/-- A tick that is over: what ended its wait, and the look that set the time of the next one. -/
theorem tick_eq_some (h : t.tick looks = .ok (some ticked)) :
    ∃ wake set rest, waitUntil t.due looks = some (wake, set :: rest) ∧ set.now + t.wait ≤ lastMoment ∧
      ticked = ⟨wake ≠ .stopped, { t with due := set.now + t.wait }, set.now, rest⟩ := by
  rcases t.tick_cases looks with ⟨hnone, -⟩ | ⟨wake, set, rest, hwait, ⟨-, hpast⟩ | ⟨htold, hticked⟩⟩
  · rw [hnone] at h
    cases h
  · rw [hpast] at h
    cases h
  · rw [hticked] at h
    exact ⟨wake, set, rest, hwait, htold, (Option.some.inj (Except.ok.inj h)).symm⟩

/-- Where a tick is not over its wait goes on, or was ended by the last look. -/
theorem wait_of_tick_eq_none (h : t.tick looks = .ok none) :
    waitUntil t.due looks = none ∨ ∃ wake, waitUntil t.due looks = some (wake, []) := by
  rcases t.tick_cases looks with ⟨-, hset⟩ | ⟨wake, set, rest, -, ⟨-, hpast⟩ | ⟨-, hticked⟩⟩
  · cases hwait : waitUntil t.due looks with
    | none => exact Or.inl rfl
    | some woken =>
      obtain ⟨wake, rest⟩ := woken
      cases rest with
      | nil => exact Or.inr ⟨wake, rfl⟩
      | cons set rest => exact absurd hwait (hset wake set rest)
  · rw [hpast] at h
    cases h
  · rw [hticked] at h
    cases h

/-- Then nothing was seen after the look that ended the wait. -/
theorem rest_of_tick_eq_none (h : t.tick looks = .ok none) (hwait : waitUntil t.due looks = some (wake, rest)) : rest = [] := by
  rcases wait_of_tick_eq_none h with hnone | ⟨wake', hsome⟩
  · rw [hnone] at hwait
    cases hwait
  · rw [hsome] at hwait
    exact (Prod.mk.inj (Option.some.inj hwait)).2.symm

/-- As long as the wait goes on, so does the tick; with the look that ends the wait it is not over yet. -/
theorem tick_of_asleep (h : waitUntil t.due looks = none) (l : Look) : t.tick (looks ++ [l]) = .ok none := by
  have hwait := waitUntil_append_of_none h [l]
  rcases l.cases t.due with hkilled | ⟨hrunning, hdue⟩ | ⟨hrunning, hearly⟩
  · exact tick_of_woken (hwait.trans (waitUntil_cons_killed hkilled))
  · exact tick_of_woken (hwait.trans (waitUntil_cons_due hrunning hdue))
  · exact tick_of_waiting (hwait.trans (waitUntil_cons_asleep hrunning hearly))

/-- Once the wait is over, the next look sets the time of the tick after it, and the tick answers by what ended the wait. -/
theorem tick_of_awake (h : waitUntil t.due looks = some (wake, [])) (l : Look) :
    t.tick (looks ++ [l]) = (do
      let due ← momentAfter l.now t.wait
      .ok (some ⟨wake ≠ .stopped, { t with due }, l.now, []⟩)) :=
  tick_of_set (waitUntil_append_of_some h [l])

/-- A tick changes nothing but the time of the next one. -/
theorem tick_timer_eq (h : t.tick looks = .ok (some ticked)) : ticked.timer = { t with due := ticked.now + t.wait } := by
  obtain ⟨wake, set, rest, -, -, rfl⟩ := tick_eq_some h
  rfl

/-- A tick leaves a timer with its signal. -/
theorem tick_handle (h : t.tick looks = .ok (some ticked)) : ticked.timer.handle = t.handle := by
  rw [tick_timer_eq h]

/-- A timer can be made unless its first tick is due one wait from now and the clock cannot tell when that is. -/
theorem create_eq (handle wait now : Nat) (immediate : Bool) :
    create handle wait now immediate =
      if immediate = false ∧ lastMoment < now + wait then .error .pastClock
      else .ok ⟨handle, wait, if immediate then now else now + wait⟩ := by
  cases immediate with
  | true => rfl
  | false =>
    by_cases hpast : lastMoment < now + wait
    · simp [create, momentAfter_eq_error hpast, hpast]
    · simp [create, momentAfter_eq_ok (Nat.le_of_not_lt hpast), hpast]

end Timer

end Lookback
