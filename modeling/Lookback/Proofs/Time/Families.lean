import Mathlib.Logic.Relation
import Lookback.Time.Threads

/-!
# Families of handles

What is seen from outside are steps and their answers. They tell which handles are copies of which, and so which handles belong
together: a family is what is joined by copying, in any number of steps and either direction (`Transcript.Family`). A family was
killed if the signal was given through some handle of it (`Transcript.Killed`).

Inside there are signals with numbers, and each handle holds the number of its signal. The two agree (`Signals.Follows`): handles
of one family, and only these, hold one number, and a signal was given if its family was killed.
-/

namespace Lookback

/-- What stands in a list with one more element at its end stood there before, or is that element. -/
theorem getElem?_snoc {β : Type} {l : List β} {x y : β} {i : Nat} (h : (l ++ [y])[i]? = some x) :
    l[i]? = some x ∨ i = l.length ∧ x = y := by
  rw [List.getElem?_append] at h
  split at h
  · exact Or.inl h
  · have hlast := (List.getElem?_eq_some_iff.mp h).1
    have hnew : i - l.length = 0 := Nat.lt_one_iff.mp hlast
    rw [hnew] at h
    exact Or.inr ⟨by omega, (Option.some.inj h).symm⟩

/-- The handle with which a step makes a timer. -/
def ThreadStep.timerOf? : ThreadStep → Option Nat
  | command (.newTimer handle _ _) | newTimer handle _ _ => some handle
  | _ => none

/-- Steps with their answers, in order. -/
abbrev Transcript := List (ThreadStep × Option ThreadAnswer)

namespace Transcript

/-- A command was carried out, with this answer. -/
def Granted (T : Transcript) (c : LoopCommand) (a : LoopAnswer) : Prop := (.command c, some (.command a)) ∈ T

/-- A command is carried out next, with this answer. -/
def grant (T : Transcript) (c : LoopCommand) (a : LoopAnswer) : Transcript := T ++ [(.command c, some (.command a))]

/-- Handle `j` was made as a copy of handle `i`. -/
def Copied (T : Transcript) (i j : Nat) : Prop := T.Granted (.copyHandle i) (.number j)

/-- A handle was made, with a signal of its own or as a copy. -/
def Made (T : Transcript) (handle : Nat) : Prop := T.Granted .newSignal (.number handle) ∨ ∃ i, T.Copied i handle

/-- Two handles belong together: they are joined by copying. -/
def Family (T : Transcript) : Nat → Nat → Prop := Relation.EqvGen T.Copied

/-- The signal was given through some handle of the family. -/
def Killed (T : Transcript) (handle : Nat) : Prop := ∃ g, T.Granted (.kill g) .done ∧ T.Family g handle

/-- A timer was made with a handle. -/
def Serves (T : Transcript) (timer handle : Nat) : Prop :=
  ∃ s : ThreadStep, s.timerOf? = some handle ∧ (s, some (.command (.number timer))) ∈ T

variable {T T' : Transcript} {c c' : LoopCommand} {a a' : LoopAnswer} {e : ThreadStep × Option ThreadAnswer}

theorem granted_snoc : Granted (T ++ [e]) c a ↔ T.Granted c a ∨ (.command c, some (.command a)) = e := by
  rw [Granted, List.mem_append, List.mem_singleton, Granted]

theorem granted_grant : (T.grant c a).Granted c' a' ↔ T.Granted c' a' ∨ c' = c ∧ a' = a := by
  rw [grant, granted_snoc, Prod.mk.injEq, ThreadStep.command.injEq, Option.some.injEq, ThreadAnswer.command.injEq]

theorem Granted.mono (h : T.Granted c a) (T' : Transcript) : Granted (T ++ T') c a :=
  List.mem_append_left T' h

theorem Family.mono {g handle : Nat} (h : T.Family g handle) (T' : Transcript) : Family (T ++ T') g handle :=
  Relation.EqvGen.mono (fun _ _ hcopied => Granted.mono hcopied T') _ _ h

theorem Made.mono {handle : Nat} (h : T.Made handle) (T' : Transcript) : Made (T ++ T') handle :=
  h.imp (fun hnew => hnew.mono T') (fun ⟨i, hi⟩ => ⟨i, hi.mono T'⟩)

theorem Killed.mono {handle : Nat} (h : T.Killed handle) (T' : Transcript) : Killed (T ++ T') handle := by
  obtain ⟨g, hkill, hfamily⟩ := h
  exact ⟨g, hkill.mono T', hfamily.mono T'⟩

theorem Serves.mono {timer handle : Nat} (h : T.Serves timer handle) (T' : Transcript) : Serves (T ++ T') timer handle := by
  obtain ⟨s, hs, hmem⟩ := h
  exact ⟨s, hs, List.mem_append_left T' hmem⟩

theorem serves_snoc {timer handle : Nat} :
    Serves (T ++ [e]) timer handle ↔
      T.Serves timer handle ∨ ∃ s : ThreadStep, s.timerOf? = some handle ∧ (s, some (.command (.number timer))) = e := by
  simp only [Serves, List.mem_append, List.mem_singleton, and_or_left, exists_or]

/-- Handles of one family agree on whatever a copy shares with the handle it was made from. -/
theorem Family.agree {β : Type} {g handle : Nat} (h : T.Family g handle) (f : Nat → β)
    (hcopied : ∀ i j, T.Copied i j → f i = f j) : f g = f handle := by
  induction h with
  | rel i j hij => exact hcopied i j hij
  | refl i => rfl
  | symm i j _ ih => exact ih.symm
  | trans i j k _ _ ih ih' => exact ih.trans ih'

end Transcript

/-- A command that makes a handle or gives a signal. -/
def LoopCommand.onSignals : LoopCommand → Bool
  | newSignal | copyHandle _ | kill _ => true
  | _ => false

namespace Signals

open Transcript

/-- Signals and handles are as a transcript says. -/
structure Follows (s : Signals) (T : Transcript) : Prop where
  refers : ∀ i k : Nat, s.handles[i]? = some k → k < s.signals.length
  made : ∀ i, T.Made i ↔ i < s.handles.length
  copied : ∀ i j, T.Copied i j → i < s.handles.length ∧ s.handles[i]? = s.handles[j]?
  family : ∀ i j k : Nat, s.handles[i]? = some k → s.handles[j]? = some k → T.Family i j
  killer : ∀ g, T.Granted (.kill g) .done → g < s.handles.length
  killed : ∀ (k : Nat) (signal : Signal), s.signals[k]? = some signal →
    (signal.killed = true ↔ ∃ g, T.Granted (.kill g) .done ∧ s.handles[g]? = some k)

variable {s s' : Signals} {T T' : Transcript} {i : Nat}

theorem none_follows : Signals.none.Follows [] where
  refers := by simp [none]
  made := by simp [Made, Copied, Granted, none]
  copied := by simp [Copied, Granted]
  family := by simp [none]
  killer := by simp [Granted]
  killed := by simp [none]

/-- Only commands on signals matter to signals. -/
theorem Follows.congr (h : s.Follows T) (hsame : ∀ c a, c.onSignals = true → (T'.Granted c a ↔ T.Granted c a)) :
    s.Follows T' := by
  have hcopied : T'.Copied = T.Copied := by
    funext i j
    exact propext (hsame (.copyHandle i) (.number j) rfl)
  have hkill : ∀ g, T'.Granted (.kill g) .done ↔ T.Granted (.kill g) .done := fun g => hsame _ _ rfl
  constructor
  case refers => exact h.refers
  case made =>
    intro i
    rw [← h.made i, Made, Made, hcopied, hsame _ _ rfl]
  case copied =>
    rw [hcopied]
    exact h.copied
  case family =>
    rw [Family, hcopied]
    exact h.family
  case killer =>
    intro g hg
    exact h.killer g ((hkill g).mp hg)
  case killed =>
    simp only [hkill]
    exact h.killed

/-- A step that is refused, or not on signals, does not matter to them. -/
theorem Follows.snoc {e : ThreadStep × Option ThreadAnswer} (h : s.Follows T)
    (hother : ∀ c a, (.command c, some (.command a)) = e → c.onSignals = false) : s.Follows (T ++ [e]) := by
  refine h.congr fun c a hc => ?_
  rw [granted_snoc]
  refine or_iff_left fun he => ?_
  rw [hother c a he] at hc
  exact nomatch hc

/-- A new signal starts a family of its own. -/
theorem Follows.create (h : s.Follows T) :
    s.create.Follows (T.grant .newSignal (.number s.handles.length)) := by
  have hcopied : ∀ i j, (T.grant .newSignal (.number s.handles.length)).Copied i j ↔
      T.Copied i j := by
    intro i j
    simp [Copied, granted_grant]
  have hkill : ∀ g, (T.grant .newSignal (.number s.handles.length)).Granted (.kill g) .done ↔
      T.Granted (.kill g) .done := by
    intro g
    simp [granted_grant]
  -- no handle so far holds the number of the new signal
  have hfresh : ∀ i : Nat, s.handles[i]? ≠ some s.signals.length := by
    intro i hi
    exact Nat.lt_irrefl _ (h.refers i _ hi)
  constructor
  case refers =>
    intro i k hi
    rw [Signals.create, List.length_append, List.length_singleton]
    rcases getElem?_snoc hi with hold | ⟨-, rfl⟩
    · exact Nat.lt_succ_of_lt (h.refers i k hold)
    · exact Nat.lt_succ_self _
  case made =>
    intro i
    rw [Signals.create, List.length_append, List.length_singleton, Nat.lt_succ_iff_lt_or_eq, ← h.made i]
    simp [Made, hcopied, granted_grant, or_right_comm]
  case copied =>
    intro i j hij
    rw [hcopied] at hij
    obtain ⟨hi, hsame⟩ := h.copied i j hij
    have hj := (h.made j).mp (Or.inr ⟨i, hij⟩)
    rw [Signals.create, List.length_append, List.getElem?_append_left hi, List.getElem?_append_left hj]
    exact ⟨Nat.lt_add_right _ hi, hsame⟩
  case family =>
    intro i j k hi hj
    rcases getElem?_snoc hi with hi | ⟨rfl, rfl⟩
    · rcases getElem?_snoc hj with hj | ⟨-, rfl⟩
      · exact (h.family i j k hi hj).mono _
      · exact absurd hi (hfresh i)
    · rcases getElem?_snoc hj with hj | ⟨rfl, -⟩
      · exact absurd hj (hfresh j)
      · exact .refl _
  case killer =>
    intro g hg
    rw [Signals.create, List.length_append]
    exact Nat.lt_add_right _ (h.killer g ((hkill g).mp hg))
  case killed =>
    intro k signal hk
    simp only [hkill]
    rcases getElem?_snoc hk with hold | ⟨rfl, rfl⟩
    · rw [h.killed k signal hold]
      refine exists_congr fun g => and_congr_right fun hg => ?_
      rw [Signals.create, List.getElem?_append_left (h.killer g hg)]
    · constructor
      · exact nofun
      · rintro ⟨g, hg, hheld⟩
        rw [Signals.create, List.getElem?_append_left (h.killer g hg)] at hheld
        exact absurd hheld (hfresh g)

/-- A copy joins the family of the handle it was made from. -/
theorem Follows.copy (h : s.Follows T) (hcopy : s.copy? i = some s') :
    s'.Follows (T.grant (.copyHandle i) (.number s.handles.length)) := by
  obtain ⟨k₀, hk₀, hs'⟩ := Option.bind_eq_some_iff.mp hcopy
  obtain rfl := Option.some.inj hs'
  have hi := (List.getElem?_eq_some_iff.mp hk₀).1
  have hcopied : ∀ a b, (T.grant (.copyHandle i) (.number s.handles.length)).Copied a b ↔
      T.Copied a b ∨ a = i ∧ b = s.handles.length := by
    intro a b
    simp [Copied, granted_grant]
  have hkill : ∀ g, (T.grant (.copyHandle i) (.number s.handles.length)).Granted (.kill g) .done ↔
      T.Granted (.kill g) .done := by
    intro g
    simp [granted_grant]
  have hjoined : (T.grant (.copyHandle i) (.number s.handles.length)).Family i s.handles.length :=
    .rel _ _ ((hcopied _ _).mpr (Or.inr ⟨rfl, rfl⟩))
  constructor
  case refers =>
    intro j k hj
    rcases getElem?_snoc hj with hold | ⟨-, rfl⟩
    · exact h.refers j k hold
    · exact h.refers i k hk₀
  case made =>
    intro j
    rw [List.length_append, List.length_singleton, Nat.lt_succ_iff_lt_or_eq, ← h.made j]
    simp [Made, hcopied, granted_grant, exists_or, or_assoc]
  case copied =>
    intro a b hab
    rw [List.length_append]
    rcases (hcopied a b).mp hab with hold | ⟨rfl, rfl⟩
    · obtain ⟨ha, hsame⟩ := h.copied a b hold
      have hb := (h.made b).mp (Or.inr ⟨a, hold⟩)
      rw [List.getElem?_append_left ha, List.getElem?_append_left hb]
      exact ⟨Nat.lt_add_right _ ha, hsame⟩
    · rw [List.getElem?_append_left hi, List.getElem?_concat_length]
      exact ⟨Nat.lt_add_right _ hi, hk₀⟩
  case family =>
    intro a b k ha hb
    rcases getElem?_snoc ha with hold | ⟨rfl, rfl⟩
    · rcases getElem?_snoc hb with hold' | ⟨rfl, rfl⟩
      · exact (h.family a b k hold hold').mono _
      · exact .trans _ _ _ ((h.family a i k hold hk₀).mono _) hjoined
    · rcases getElem?_snoc hb with hold' | ⟨rfl, -⟩
      · exact .trans _ _ _ (.symm _ _ hjoined) ((h.family i b k hk₀ hold').mono _)
      · exact .refl _
  case killer =>
    intro g hg
    rw [List.length_append]
    exact Nat.lt_add_right _ (h.killer g ((hkill g).mp hg))
  case killed =>
    intro k signal hk
    simp only [hkill]
    rw [h.killed k signal hk]
    refine exists_congr fun g => and_congr_right fun hg => ?_
    rw [List.getElem?_append_left (h.killer g hg)]

/-- The signal given through a handle is given to its family. -/
theorem Follows.kill (h : s.Follows T) (hkill : s.kill? i = some s') :
    s'.Follows (T.grant (.kill i) .done) := by
  obtain ⟨k₀, hk₀, hs'⟩ := Option.bind_eq_some_iff.mp hkill
  obtain rfl := Option.some.inj hs'
  have hi := (List.getElem?_eq_some_iff.mp hk₀).1
  have hcopied : (T.grant (.kill i) .done).Copied = T.Copied := by
    funext a b
    simp [Copied, granted_grant]
  have hgiven : ∀ g, (T.grant (.kill i) .done).Granted (.kill g) .done ↔
      T.Granted (.kill g) .done ∨ g = i := by
    intro g
    simp [granted_grant]
  constructor
  case refers =>
    intro j k hj
    rw [List.length_modify]
    exact h.refers j k hj
  case made =>
    intro j
    rw [← h.made j]
    simp [Made, hcopied, granted_grant]
  case copied =>
    rw [hcopied]
    exact h.copied
  case family =>
    rw [Family, hcopied]
    exact h.family
  case killer =>
    intro g hg
    rcases (hgiven g).mp hg with hold | rfl
    · exact h.killer g hold
    · exact hi
  case killed =>
    intro k signal hk
    simp only [hgiven]
    rw [List.getElem?_modify] at hk
    by_cases hsame : k₀ = k
    · subst hsame
      simp only [if_true] at hk
      obtain ⟨old, -, rfl⟩ := Option.map_eq_some_iff.mp hk
      exact ⟨fun _ => ⟨i, Or.inr rfl, hk₀⟩, fun _ => rfl⟩
    · simp only [if_neg hsame, Option.map_eq_map, Option.map_id'] at hk
      rw [h.killed k signal hk]
      refine exists_congr fun g => and_congr_left fun hg => ?_
      constructor
      · exact Or.inl
      · rintro (hold | rfl)
        · exact hold
        · exact absurd (Option.some.inj (hk₀.symm.trans hg)) hsame

/-- A handle that refers to a signal was made. -/
theorem Follows.made_of_get? {signal : Signal} (h : s.Follows T) (hsignal : s.get? i = some signal) : T.Made i := by
  obtain ⟨k, hk, -⟩ := Option.bind_eq_some_iff.mp hsignal
  exact (h.made i).mpr (List.getElem?_eq_some_iff.mp hk).1

/-- What a handle tells: its signal was given if its family was killed. -/
theorem Follows.get? (h : s.Follows T) (hmade : T.Made i) :
    ∃ signal, s.get? i = some signal ∧ (signal.killed = true ↔ T.Killed i) := by
  obtain ⟨k, hk⟩ : ∃ k, s.handles[i]? = some k := ⟨_, List.getElem?_eq_getElem ((h.made i).mp hmade)⟩
  have hlt := h.refers i k hk
  refine ⟨s.signals[k], ?_, ?_⟩
  · rw [Signals.get?, hk]
    exact List.getElem?_eq_getElem hlt
  · rw [h.killed k _ (List.getElem?_eq_getElem hlt)]
    refine exists_congr fun g => and_congr_right fun _ => ?_
    constructor
    · intro hg
      exact h.family g i k hg hk
    · intro hfamily
      rw [← hk]
      exact hfamily.agree (fun j => s.handles[j]?) fun a b hab => (h.copied a b hab).2

end Signals

end Lookback
