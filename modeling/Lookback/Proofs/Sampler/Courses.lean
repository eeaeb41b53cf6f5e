import Lookback.Proofs.Time.Waits
import Lookback.Sampler.Producer

/-!
# What a producer does after its signal was given

On its timer a producer looks and writes. Before each write there is the look that granted its tick, which did not show the stop
signal, and the one that set the tick after it; nothing lies between that and the write (`Course.Sound`). So once the signal was
given no tick is granted. The tick granted last may be over by then and its sample still unwritten, and then that one sample is
written after the signal (`Course.Sound.late`).
-/

namespace Lookback

namespace Producer

variable {clock : Nat → Timestamp} {p p' : Produced} {c c' : Course} {t : Timer} {looks taken rest : List Look} {n left : Nat}
  {before after earlier more : List Moment} {woken set : Look}

/-! ## Looks and writes -/

/-- The look that was taken, if it was one. -/
def Moment.look? : Moment → Option Look
  | look l => some l
  | wrote _ => none

/-- The number that was written, if there was one. -/
def Moment.wrote? : Moment → Option Nat
  | look _ => none
  | wrote n => some n

/-- The looks that were taken. -/
def looksOf (moments : List Moment) : List Look := moments.filterMap Moment.look?

/-- The numbers that were written. -/
def writesOf (moments : List Moment) : List Nat := moments.filterMap Moment.wrote?

theorem looksOf_append : looksOf (before ++ after) = looksOf before ++ looksOf after := List.filterMap_append

theorem writesOf_append : writesOf (before ++ after) = writesOf before ++ writesOf after := List.filterMap_append

theorem looksOf_map_look (looks : List Look) : looksOf (looks.map .look) = looks := by
  induction looks with
  | nil => rfl
  | cons l looks ih => exact congrArg (l :: ·) ih

theorem writesOf_map_look (looks : List Look) : writesOf (looks.map .look) = [] := by
  induction looks with
  | nil => rfl
  | cons l looks ih => exact ih

theorem mem_looksOf {l : Look} (h : .look l ∈ before) : l ∈ looksOf before := List.mem_filterMap.mpr ⟨_, h, rfl⟩

/-- Without a first write there is none. -/
theorem writesOf_cases (moments : List Moment) :
    writesOf moments = [] ∨ ∃ before n after, moments = before ++ .wrote n :: after := by
  induction moments with
  | nil => exact Or.inl rfl
  | cons m moments ih =>
    cases m with
    | wrote n => exact Or.inr ⟨[], n, moments, rfl⟩
    | look l => exact ih.imp_right fun ⟨before, n, after, h⟩ => ⟨.look l :: before, n, after, congrArg (.look l :: ·) h⟩

/-! ## Courses -/

theorem count_of_write (h : write clock p = .ok p') : p'.count = p.count + 1 := by
  obtain ⟨history, -, h⟩ := bind_eq_ok h
  rw [← Except.ok.inj h]

/-- What is so during a run: its looks and those to come are all there were, the numbers are written in order from zero, and
before a write its tick was granted by a look without the stop signal, with one look more. -/
structure Course.Sound (c : Course) (looks rest : List Look) : Prop where
  looks_eq : looks = looksOf c.moments ++ rest
  writes_eq : writesOf c.moments = List.range c.produced.count
  granted : ∀ before n after, c.moments = before ++ .wrote n :: after →
    ∃ earlier woken set, before = earlier ++ [.look woken, .look set] ∧ woken.killed = false

namespace Course.Sound

theorem beginning (h : History Sample) (looks : List Look) : (⟨⟨0, h⟩, []⟩ : Course).Sound looks looks where
  looks_eq := rfl
  writes_eq := rfl
  granted := by simp

theorem looked (h : c.Sound looks (taken ++ rest)) : (⟨c.produced, c.moments ++ taken.map .look⟩ : Course).Sound looks rest := by
  constructor
  case looks_eq => rw [looksOf_append, looksOf_map_look, List.append_assoc, ← h.looks_eq]
  case writes_eq => rw [writesOf_append, writesOf_map_look, List.append_nil, h.writes_eq]
  case granted =>
    intro before n after hsplit
    have hnone (pre post : List Moment) : taken.map .look ≠ pre ++ .wrote n :: post := by
      intro hlooks
      have hmem : Moment.wrote n ∈ taken.map Moment.look := hlooks ▸ List.mem_append_right pre List.mem_cons_self
      obtain ⟨l, -, hl⟩ := List.mem_map.mp hmem
      cases hl
    rcases List.append_eq_append_iff.mp hsplit with ⟨pre, -, hlooks⟩ | ⟨later, hmoments, hlooks⟩
    · exact absurd hlooks (hnone pre after)
    · cases later with
      | nil => exact absurd hlooks.symm (hnone [] after)
      | cons m later =>
        obtain ⟨rfl, -⟩ := List.cons.inj hlooks
        exact h.granted before n later hmoments

theorem wrote (h : c.Sound looks rest) (hlast : c.moments = earlier ++ [.look woken, .look set]) (hgranted : woken.killed = false)
    (hcount : p.count = c.produced.count + 1) : (⟨p, c.moments ++ [.wrote c.produced.count]⟩ : Course).Sound looks rest := by
  constructor
  case looks_eq =>
    rw [looksOf_append, h.looks_eq]
    exact congrArg (· ++ rest) (List.append_nil _).symm
  case writes_eq =>
    rw [writesOf_append, h.writes_eq, hcount, List.range_succ]
    rfl
  case granted =>
    intro before n after hsplit
    rcases List.eq_nil_or_concat after with rfl | ⟨later, m, rfl⟩
    · obtain rfl := List.append_inj_left' hsplit rfl
      exact ⟨earlier, woken, set, hlast, hgranted⟩
    · rw [List.concat_eq_append, ← List.cons_append, ← List.append_assoc] at hsplit
      exact h.granted before n later (List.append_inj_left' hsplit rfl)

/-- Between the stop signal and a write after it there is at most the look that set the next tick. -/
theorem before_write (h : c.Sound looks rest) (hmoments : c.moments = before ++ (more ++ .wrote n :: after))
    (hkilled : ∀ l, .look l ∈ more → l.killed = true) :
    ∃ earlier woken set, woken.killed = false ∧
      (before = earlier ++ [.look woken] ∧ more = [.look set] ∨ before = earlier ++ [.look woken, .look set] ∧ more = []) := by
  rw [← List.append_assoc] at hmoments
  obtain ⟨earlier, woken, set, hlast, hrunning⟩ := h.granted (before ++ more) n after hmoments
  have hseen : .look woken ∉ more := by
    intro hmem
    rw [hkilled woken hmem] at hrunning
    cases hrunning
  rcases List.append_eq_append_iff.mp hlast with ⟨between, -, rfl⟩ | ⟨between, hbefore, hmore⟩
  · exact absurd (by simp) hseen
  · match between with
    | [] =>
      obtain rfl : [.look woken, .look set] = more := hmore
      exact absurd List.mem_cons_self hseen
    | [m] =>
      obtain ⟨rfl, rfl⟩ : .look woken = m ∧ [.look set] = more := List.cons.inj hmore
      exact ⟨earlier, woken, set, hrunning, Or.inl ⟨hbefore, rfl⟩⟩
    | m :: m' :: between =>
      simp only [List.cons_append, List.cons.injEq, List.nil_eq_append_iff] at hmore
      obtain ⟨rfl, rfl, rfl, rfl⟩ := hmore
      exact ⟨earlier, woken, set, hrunning, Or.inr ⟨hbefore, rfl⟩⟩

/-- From the moment the stop signal was given nothing is written, or only the sample whose tick was granted right before. -/
theorem late (h : c.Sound looks rest) (hmoments : c.moments = before ++ after) (hkilled : ∀ l ∈ looksOf after, l.killed = true) :
    writesOf after = [] ∨ ∃ earlier woken set later, woken.killed = false ∧ writesOf later = [] ∧
      (before = earlier ++ [.look woken] ∧ after = .look set :: .wrote (c.produced.count - 1) :: later ∨
        before = earlier ++ [.look woken, .look set] ∧ after = .wrote (c.produced.count - 1) :: later) := by
  refine (writesOf_cases after).imp_right ?_
  rintro ⟨more, n, later, rfl⟩
  obtain ⟨earlier, woken, set, hrunning, hmore⟩ := h.before_write hmoments fun l hl => hkilled l (mem_looksOf (by simp [hl]))
  -- a second write would come too late for its own tick
  have hlater : writesOf later = [] := by
    refine (writesOf_cases later).resolve_right ?_
    rintro ⟨between, n', last, rfl⟩
    have hmoments' : c.moments = before ++ ((more ++ .wrote n :: between) ++ .wrote n' :: last) := by
      rw [hmoments, List.append_assoc, List.cons_append]
    have hsecond := h.before_write hmoments' fun l hl => hkilled l (mem_looksOf (by simpa [or_assoc] using Or.inl hl))
    obtain ⟨-, -, set', -, ⟨-, hshort⟩ | ⟨-, hshort⟩⟩ := hsecond
    · have hmem : Moment.wrote n ∈ [.look set'] := hshort ▸ List.mem_append_right more List.mem_cons_self
      cases List.mem_singleton.mp hmem
    · simp at hshort
  have hmoreWrites : writesOf more = [] := by
    rcases hmore with ⟨-, rfl⟩ | ⟨-, rfl⟩
    · rfl
    · rfl
  have hlast : n = c.produced.count - 1 := by
    have hwrites : List.range c.produced.count = writesOf before ++ [n] := by
      rw [← h.writes_eq, hmoments, writesOf_append, writesOf_append, hmoreWrites]
      exact congrArg (writesOf before ++ n :: ·) hlater
    have hcount : c.produced.count = (writesOf before).length + 1 := by
      rw [← List.length_range (n := c.produced.count), hwrites, List.length_append, List.length_singleton]
    rw [hcount, List.range_succ] at hwrites
    rw [hcount, Nat.add_sub_cancel]
    exact (List.singleton_inj.mp (List.append_inj_right' hwrites rfl)).symm
  subst hlast
  refine ⟨earlier, woken, set, later, hrunning, hlater, ?_⟩
  rcases hmore with ⟨hbefore, rfl⟩ | ⟨hbefore, rfl⟩
  · exact Or.inl ⟨hbefore, rfl⟩
  · exact Or.inr ⟨hbefore, rfl⟩

end Course.Sound

/-- A run keeps to this, tick by tick. -/
theorem sound_of_writeOnTicks (h : c.Sound looks rest) (hrun : writeOnTicks clock left t rest c = .ok (some c')) :
    ∃ rest', c'.Sound looks rest' := by
  induction left generalizing t rest c with
  | zero =>
    obtain rfl := Option.some.inj (Except.ok.inj hrun)
    exact ⟨rest, h⟩
  | succ left ih =>
    rw [writeOnTicks] at hrun
    split at hrun
    case h_1 => cases hrun
    case h_2 => cases hrun
    case h_3 ticked htick =>
      obtain ⟨wake, set, rest', hwait, -, rfl⟩ := Timer.tick_eq_some htick
      obtain ⟨early, woken, rfl, -, hwoken⟩ := waitUntil_eq_some hwait
      have htaken : (early ++ woken :: set :: rest').take ((early ++ woken :: set :: rest').length - rest'.length) =
          early ++ [woken, set] := by
        rw [List.append_cons, List.append_cons _ set, List.length_append, Nat.add_sub_cancel, List.take_left, List.append_assoc]
        rfl
      dsimp only at hrun
      rw [htaken] at hrun
      have hlooked : (⟨c.produced, c.moments ++ (early ++ [woken, set]).map .look⟩ : Course).Sound looks rest' :=
        Course.Sound.looked (by rwa [List.append_assoc])
      split at hrun
      · rename_i hgoes
        have hgranted : woken.killed = false := by
          obtain ⟨rfl, -⟩ | ⟨-, hrunning, -⟩ := hwoken
          · simp at hgoes
          · exact hrunning
        obtain ⟨p, hwrite, hrun⟩ := bind_eq_ok hrun
        have hlast : c.moments ++ (early ++ [woken, set]).map .look =
            (c.moments ++ early.map .look) ++ [.look woken, .look set] := by simp
        exact ih (hlooked.wrote hlast hgranted (count_of_write hwrite)) hrun
      · obtain rfl := Option.some.inj (Except.ok.inj hrun)
        exact ⟨rest', hlooked⟩

end Producer

end Lookback
