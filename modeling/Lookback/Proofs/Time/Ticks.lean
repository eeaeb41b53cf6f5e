import Mathlib.Data.List.Chain
import Lookback.Proofs.Time.Waits

/-!
# Ticks are never early

A program calls a timer: it waits for ticks and changes the time between them, in any order (`Timer.perform`). How often the timer
looks up during a wait is left open; it may be woken any number of times before the tick is due. Without the stop signal a wait ends at
the first look at which the time has come (`waitUntil_eq_due_iff`), and one look more sets the next tick, one wait away
(`Beat.exists_endsAt`).

So the time between two ticks is the one that was set before the first of them, or longer; what is set in between does not move the
second one, and counts from there on (`Timer.ticks_never_early`).
-/

namespace Lookback

/-- What a program asks of its timer. -/
inductive TimerCall where
  /-- Wait for the next tick. -/
  | tick
  /-- Change the time between ticks. -/
  | setWait (wait : Nat)
  deriving DecidableEq, Repr

/-- The time between ticks at each tick, where it is `wait` at first. -/
def waitsInForce (wait : Nat) : List TimerCall → List Nat
  | [] => []
  | .tick :: later => wait :: waitsInForce wait later
  | .setWait wait :: later => waitsInForce wait later

/-- A tick that is over. -/
structure Beat where
  /-- The timer that waited. -/
  timer : Timer
  /-- The looks there were for it. -/
  looks : List Look
  /-- What it left. -/
  ticked : Timer.Ticked
  tick_eq : timer.tick looks = .ok (some ticked)

/-- Calls a timer, as long as there are looks for its ticks and the clock can tell when they are due: those that are over. -/
def Timer.perform (t : Timer) (looks : List Look) : List TimerCall → List Beat
  | [] => []
  | .setWait wait :: later => (t.setWait wait).perform looks later
  | .tick :: later =>
    match h : t.tick looks with
    | .ok (some ticked) => ⟨t, looks, ticked, h⟩ :: ticked.timer.perform ticked.looks later
    | .ok none | .error _ => []

/-- A tick without the stop signal: the `early` looks showed a time before it was due, the one that woke it did not, and the next one
set the time of the tick after it. -/
structure Beat.EndsAt (b : Beat) (early : List Look) (woken set : Look) : Prop where
  looks_eq : b.looks = early ++ woken :: set :: b.ticked.looks
  early_lt : ∀ l ∈ early, l.now < b.timer.due
  due_le : b.timer.due ≤ woken.now
  woken_le : woken.now ≤ set.now
  ticked_eq : b.ticked = ⟨true, { b.timer with due := set.now + b.timer.wait }, set.now, b.ticked.looks⟩

variable {t : Timer} {looks rest : List Look} {calls : List TimerCall}

/-- A wait ends by the clock at the first look at which the time has come, if none up to it showed the stop signal. -/
theorem waitUntil_eq_due_iff {deadline now : Nat} :
    waitUntil deadline looks = some (.due now, rest) ↔
      ∃ early l, looks = early ++ l :: rest ∧ (∀ e ∈ early, e.killed = false ∧ e.now < deadline) ∧
        l.killed = false ∧ deadline ≤ l.now ∧ l.now = now := by
  constructor
  · intro h
    obtain ⟨early, l, hlooks, hearly, ⟨hwake, -⟩ | ⟨hwake, hrunning, hdue⟩⟩ := waitUntil_eq_some h
    · cases hwake
    · exact ⟨early, l, hlooks, hearly, hrunning, hdue, (Wake.due.inj hwake).symm⟩
  · rintro ⟨early, l, rfl, hearly, hrunning, hdue, rfl⟩
    rw [waitUntil_append_of_none (waitUntil_eq_none_iff.mpr hearly), waitUntil_cons_due hrunning hdue]

/-- Without the stop signal a tick that is over was woken when it was due, and set the one after it. -/
theorem Beat.exists_endsAt (b : Beat) (hclock : (b.looks.map Look.now).Pairwise (· ≤ ·))
    (hrunning : ∀ l ∈ b.looks, l.killed = false) : ∃ early woken set, b.EndsAt early woken set := by
  obtain ⟨t, looks, ticked, htick⟩ := b
  obtain ⟨wake, set, rest, hwait, -, rfl⟩ := Timer.tick_eq_some htick
  obtain ⟨now, rfl⟩ : ∃ now, wake = .due now := by
    obtain ⟨early, l, rfl, -, ⟨-, hkilled⟩ | ⟨hwake, -⟩⟩ := waitUntil_eq_some hwait
    · rw [hrunning l (by simp)] at hkilled
      nomatch hkilled
    · exact ⟨l.now, hwake⟩
  obtain ⟨early, woken, rfl, hearly, -, hdue, rfl⟩ := waitUntil_eq_due_iff.mp hwait
  rw [List.map_append, List.map_cons, List.map_cons] at hclock
  have hlater := (List.pairwise_cons.mp (List.pairwise_append.mp hclock).2.1).1
  refine ⟨early, woken, set, ?_⟩
  constructor
  case looks_eq => rfl
  case early_lt => exact fun l hl => (hearly l hl).2
  case due_le => exact hdue
  case woken_le => exact hlater set.now List.mem_cons_self
  case ticked_eq => rfl

namespace Timer

variable {b : Beat}

/-! ## Calls -/

theorem perform_tick_of_some {ticked : Ticked} (h : t.tick looks = .ok (some ticked)) (later : List TimerCall) :
    t.perform looks (.tick :: later) = ⟨t, looks, ticked, h⟩ :: ticked.timer.perform ticked.looks later := by
  rw [perform]
  split
  case h_1 ticked' hsome =>
    obtain rfl := Option.some.inj (Except.ok.inj (hsome.symm.trans h))
    rfl
  case h_2 hnone =>
    rw [hnone] at h
    cases h
  case h_3 failure hfailed =>
    rw [hfailed] at h
    cases h

/-- Calls come to an end with a tick that is not over. -/
theorem perform_tick_of_open (h : ¬∃ ticked, t.tick looks = .ok (some ticked)) (later : List TimerCall) :
    t.perform looks (.tick :: later) = [] := by
  rw [perform]
  split
  case h_1 ticked hsome => exact absurd ⟨ticked, hsome⟩ h
  case h_2 => rfl
  case h_3 => rfl

/-- The first tick among calls is that of the timer as it is due, with all looks to come. -/
theorem perform_head (hb : b ∈ (t.perform looks calls).head?) : b.timer.due = t.due ∧ b.looks = looks := by
  induction calls generalizing t with
  | nil => nomatch hb
  | cons call later ih =>
    cases call with
    | setWait wait => exact ih (t := t.setWait wait) hb
    | tick =>
      by_cases hover : ∃ ticked, t.tick looks = .ok (some ticked)
      · obtain ⟨ticked, htick⟩ := hover
        rw [perform_tick_of_some htick] at hb
        obtain rfl := Option.some.inj hb
        exact ⟨rfl, rfl⟩
      · rw [perform_tick_of_open hover] at hb
        nomatch hb

/-- The time between ticks is the one that was set last. -/
theorem perform_waits (t : Timer) (looks : List Look) (calls : List TimerCall) :
    (t.perform looks calls).map (fun b => b.timer.wait) <+: waitsInForce t.wait calls := by
  induction calls generalizing t looks with
  | nil => exact List.nil_prefix
  | cons call later ih =>
    cases call with
    | setWait wait => exact ih (t.setWait wait) looks
    | tick =>
      by_cases hover : ∃ ticked, t.tick looks = .ok (some ticked)
      · obtain ⟨ticked, htick⟩ := hover
        have hwait : ticked.timer.wait = t.wait := by rw [tick_timer_eq htick]
        rw [perform_tick_of_some htick, List.map_cons, waitsInForce, List.prefix_cons_inj, ← hwait]
        exact ih ticked.timer ticked.looks
      · rw [perform_tick_of_open hover]
        exact List.nil_prefix

end Timer

/-- Two ticks without the stop signal, one after the other: the second one was due one wait after the first one set its time, with the
time between ticks as the first one found it, and it was not woken earlier than that. -/
def Beat.Paces (b b' : Beat) : Prop :=
  ∃ early woken set early' woken' set', b.EndsAt early woken set ∧ b'.EndsAt early' woken' set' ∧
    b'.timer.due = set.now + b.timer.wait ∧ woken.now + b.timer.wait ≤ woken'.now

theorem Beat.EndsAt.paces {b b' : Beat} {early early' : List Look} {woken set woken' set' : Look} (h : b.EndsAt early woken set)
    (h' : b'.EndsAt early' woken' set') (hdue : b'.timer.due = b.ticked.timer.due) : b.Paces b' := by
  rw [h.ticked_eq] at hdue
  refine ⟨early, woken, set, early', woken', set', h, h', hdue, ?_⟩
  calc
    woken.now + b.timer.wait ≤ set.now + b.timer.wait := Nat.add_le_add_right h.woken_le _
    _ = b'.timer.due := hdue.symm
    _ ≤ woken'.now := h'.due_le

theorem Beat.EndsAt.suffix {b : Beat} {early : List Look} {woken set : Look} (h : b.EndsAt early woken set) :
    b.ticked.looks <:+ b.looks :=
  ⟨early ++ [woken, set], by rw [h.looks_eq, List.append_assoc]; rfl⟩

namespace Timer

/-- Without the stop signal, each tick among calls ends when it is due, and paces the one after it. -/
theorem perform_paced (t : Timer) (calls : List TimerCall) (hclock : (looks.map Look.now).Pairwise (· ≤ ·))
    (hrunning : ∀ l ∈ looks, l.killed = false) :
    (∀ b ∈ t.perform looks calls, ∃ early woken set, b.EndsAt early woken set) ∧
      (t.perform looks calls).IsChain Beat.Paces := by
  induction calls generalizing t looks with
  | nil => exact ⟨nofun, .nil⟩
  | cons call later ih =>
    cases call with
    | setWait wait => exact ih (t.setWait wait) hclock hrunning
    | tick =>
      by_cases hover : ∃ ticked, t.tick looks = .ok (some ticked)
      case neg =>
        rw [perform_tick_of_open hover]
        exact ⟨nofun, .nil⟩
      case pos =>
        obtain ⟨ticked, htick⟩ := hover
        rw [perform_tick_of_some htick]
        obtain ⟨early, woken, set, hends⟩ := Beat.exists_endsAt ⟨t, looks, ticked, htick⟩ hclock hrunning
        have hsuffix : ticked.looks <:+ looks := hends.suffix
        have hclock' : (ticked.looks.map Look.now).Pairwise (· ≤ ·) := hclock.sublist (hsuffix.sublist.map Look.now)
        have hrunning' : ∀ l ∈ ticked.looks, l.killed = false := fun l hl => hrunning l (hsuffix.mem hl)
        obtain ⟨hlater, hpaced⟩ := ih ticked.timer hclock' hrunning'
        refine ⟨List.forall_mem_cons.mpr ⟨⟨early, woken, set, hends⟩, hlater⟩, List.isChain_cons.mpr ⟨?_, hpaced⟩⟩
        intro b hb
        obtain ⟨early', woken', set', hends'⟩ := hlater b (List.mem_of_mem_head? hb)
        exact hends.paces hends' (perform_head hb).1

/-- Where the time of a tick has come, it takes one look to wake and one to set the next tick. -/
theorem tick_of_due {woken set : Look} (hrunning : woken.killed = false) (hdue : t.due ≤ woken.now)
    (htold : set.now + t.wait ≤ lastMoment) :
    t.tick (woken :: set :: rest) = .ok (some ⟨true, { t with due := set.now + t.wait }, set.now, rest⟩) := by
  rw [tick_of_set (waitUntil_cons_due hrunning hdue), momentAfter_eq_ok htold]
  rfl

/-- Whatever a timer is asked for, and however often it is woken during a wait, while the clock does not go back and the stop signal
is not given. A wait ends at the first look at which the time has come. A timer can be made if its first tick is due at once or the
clock can tell when it is. Every tick that is over answered that the loop goes on, and was not early. The first one was due one wait
after the timer was made; where it was due at once, the first look ends its wait. Each of the others came at least as long after the
one before it as the time between ticks was when that one returned: what was set in between counts from the tick after that on. -/
theorem ticks_never_early (handle wait created : Nat) (immediate : Bool) (calls : List TimerCall)
    (htold : immediate = true ∨ created + wait ≤ lastMoment) (hclock : (created :: looks.map Look.now).Pairwise (· ≤ ·))
    (hrunning : ∀ l ∈ looks, l.killed = false) :
    (∀ (deadline now : Nat) (seen rest : List Look), waitUntil deadline seen = some (.due now, rest) ↔
      ∃ early woken, seen = early ++ woken :: rest ∧ (∀ l ∈ early, l.killed = false ∧ l.now < deadline) ∧
        woken.killed = false ∧ deadline ≤ woken.now ∧ woken.now = now) ∧
    ∃ t, create handle wait created immediate = .ok t ∧
      (immediate = true → ∀ woken set later, looks = woken :: set :: later → set.now + wait ≤ lastMoment →
        t.tick looks = .ok (some ⟨true, ⟨handle, wait, set.now + wait⟩, set.now, later⟩)) ∧
    ∃ beats, t.perform looks calls = beats ∧
      beats.map (fun b => b.timer.wait) <+: waitsInForce wait calls ∧
      (∀ b ∈ beats, b.ticked.goesOn = true ∧ ∃ early woken set, b.EndsAt early woken set) ∧
      (∀ b ∈ beats.head?, ∃ early woken set, b.EndsAt early woken set ∧
        (immediate = false → created + wait ≤ woken.now) ∧ (immediate = true → early = [])) ∧
      beats.IsChain Beat.Paces := by
  have hpresent : ¬(immediate = false ∧ lastMoment < created + wait) := by
    rintro ⟨rfl, hpast⟩
    exact absurd (htold.resolve_left Bool.false_ne_true) (Nat.not_le_of_lt hpast)
  refine ⟨fun _ _ _ _ => waitUntil_eq_due_iff, _, (create_eq _ _ _ _).trans (if_neg hpresent), ?_, ?_⟩
  · rintro rfl woken set later rfl hset
    have hdue : created ≤ woken.now := (List.pairwise_cons.mp hclock).1 woken.now List.mem_cons_self
    exact tick_of_due (hrunning woken List.mem_cons_self) hdue hset
  obtain ⟨hcreated, hclock⟩ := List.pairwise_cons.mp hclock
  obtain ⟨hends, hpaced⟩ := perform_paced ⟨handle, wait, if immediate then created else created + wait⟩ calls hclock hrunning
  refine ⟨_, rfl, perform_waits _ looks calls, ?_, ?_, hpaced⟩
  · intro b hb
    obtain ⟨early, woken, set, h⟩ := hends b hb
    refine ⟨?_, early, woken, set, h⟩
    rw [h.ticked_eq]
  · intro b hb
    obtain ⟨early, woken, set, h⟩ := hends b (List.mem_of_mem_head? hb)
    obtain ⟨hdue, hlooks⟩ := perform_head hb
    refine ⟨early, woken, set, h, ?_, ?_⟩
    · rintro rfl
      have hlater : b.timer.due = created + wait := hdue
      exact hlater ▸ h.due_le
    · rintro rfl
      have hatOnce : b.timer.due = created := hdue
      -- a look before it was due would be one before the timer was made
      refine List.eq_nil_iff_forall_not_mem.mpr fun l hl => ?_
      have hlook : l ∈ looks := by
        rw [← hlooks, h.looks_eq]
        exact List.mem_append_left _ hl
      have hearly : l.now < created := hatOnce ▸ h.early_lt l hl
      exact absurd (hcreated l.now (List.mem_map_of_mem hlook)) (Nat.not_le_of_lt hearly)

/-- Looks of a timer at three ticks. Before the second one it is woken three times too early. -/
def wokenOften : List Look :=
  [⟨false, 101⟩, ⟨false, 102⟩, ⟨false, 105⟩, ⟨false, 105⟩, ⟨false, 121⟩, ⟨false, 123⟩, ⟨false, 125⟩, ⟨false, 130⟩, ⟨false, 131⟩]

/-- The timer starts at once. Its wait is 20 at the first tick and 5 from then on: the second tick keeps its distance of 20 all the
same, and the third one comes 5 later. -/
theorem ticks_never_early_when_woken_often :
    (true = true ∨ 100 + 10 ≤ lastMoment) ∧ ((100 :: wokenOften.map Look.now).Pairwise (· ≤ ·)) ∧ (∀ l ∈ wokenOften, l.killed = false) ∧
      ∃ t b b' b'', create 0 10 100 true = .ok t ∧ 102 + 10 ≤ lastMoment ∧
        t.tick wokenOften = .ok (some ⟨true, ⟨0, 10, 112⟩, 102, wokenOften.drop 2⟩) ∧
        t.perform wokenOften [.setWait 20, .tick, .setWait 5, .tick, .tick] = [b, b', b''] ∧
        [b.timer.wait, b'.timer.wait, b''.timer.wait] <+: [20, 5, 5] ∧
        [b.ticked.now, b'.ticked.now, b''.ticked.now] = [102, 125, 131] ∧
        b'.timer.due = 122 ∧ b.Paces b' ∧ b''.timer.due = 130 ∧ b'.Paces b'' := by
  have hclock : (100 :: wokenOften.map Look.now).Pairwise (· ≤ ·) := by decide
  have hrunning : ∀ l ∈ wokenOften, l.killed = false := by decide
  obtain ⟨-, t, hcreate, hatOnce, beats, hperform, hwaits, -, -, hpaced⟩ :=
    ticks_never_early 0 10 100 true [.setWait 20, .tick, .setWait 5, .tick, .tick] (Or.inl rfl) hclock hrunning
  obtain rfl : t = ⟨0, 10, 100⟩ := (Except.ok.inj hcreate).symm
  subst hperform
  obtain ⟨hfirst, hlater⟩ := List.isChain_cons_cons.mp hpaced
  exact ⟨Or.inl rfl, hclock, hrunning, _, _, _, _, hcreate, by decide, hatOnce rfl _ _ _ rfl (by decide), rfl, hwaits, rfl, rfl, hfirst, rfl,
    (List.isChain_cons_cons.mp hlater).1⟩

end Timer

end Lookback
