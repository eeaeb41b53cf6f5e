import Lookback.Proofs.Cycle

/-!
# Walks along a cycle

A walk takes single steps forward and back, and each of the two has a way of its own past the ends of the cycle. In exact
integers a step adds one or takes one away, modulo the length of the cycle (`Step.take_eq_ok`). So a walk never stops, and where
it stands after some of its steps depends only on where it began and on how many of them led forward and how many back
(`walk_eq_ok`): walks of the same steps in another order end at the same position (`walk_counts_steps`).
-/

namespace Lookback

namespace Cyclic

variable {w : Width} {a limit : Nat}

/-! ## What steps add up to -/

/-- What a step adds to a position. -/
def Step.shift : Step → Int
  | forward => 1
  | back => -1

/-- What steps add to a position altogether: one for each step forward, less one for each step back. -/
def Step.total (steps : List Step) : Int := steps.count .forward - steps.count .back

theorem Step.total_cons (step : Step) (steps : List Step) : total (step :: steps) = step.shift + total steps := by
  unfold total
  cases step with
  | forward =>
    rw [List.count_cons_self, List.count_cons_of_ne (by decide), shift]
    omega
  | back =>
    rw [List.count_cons_self, List.count_cons_of_ne (by decide), shift]
    omega

/-- The order of steps does not matter to what they add up to. -/
theorem Step.total_perm {steps steps' : List Step} (h : steps'.Perm steps) : total steps' = total steps := by
  unfold total
  rw [h.count_eq, h.count_eq]

/-- Without a step a position stays where it is. -/
theorem Step.add_total_nil (ha : a ≤ limit) : ((a : Int) + total []) % (limit + 1) = a := by
  have hnone : total [] = 0 := rfl
  rw [hnone, Int.add_zero, Int.emod_eq_of_lt (by omega) (by omega)]

/-! ## One step -/

/-- A step from a position of the cycle leads to one, in exact integers one further or one back. -/
theorem Step.take_eq_ok (ha : a ≤ limit) (hlimit : limit ≤ w.maxValue) (step : Step) :
    ∃ b, step.take w a limit = .ok b ∧ b ≤ limit ∧ (b : Int) = (a + step.shift) % (limit + 1) := by
  cases step with
  | forward =>
    refine ⟨(a + 1) % (limit + 1), next_eq_ok ha hlimit, mod_le_limit _ _, ?_⟩
    simp [shift]
  | back =>
    have hback : (a : Int) + limit = a + -1 + (limit + 1) := by omega
    refine ⟨(a + limit) % (limit + 1), prev_eq_ok ha hlimit, mod_le_limit _ _, ?_⟩
    push_cast
    rw [hback, Int.add_emod_right]
    rfl

/-! ## All steps -/

/-- A walk from a position of the cycle takes all its steps. After some of them it stands where these steps alone lead to. -/
theorem walk_eq_ok (ha : a ≤ limit) (hlimit : limit ≤ w.maxValue) (steps : List Step) :
    ∃ positions, walk w a limit steps = .ok positions ∧ positions.length = steps.length ∧
      ∀ before after, steps = before ++ after →
        ∃ p, (a :: positions)[before.length]? = some p ∧ p ≤ limit ∧
          (p : Int) = (a + Step.total before) % (limit + 1) := by
  induction steps generalizing a with
  | nil =>
    refine ⟨[], rfl, rfl, ?_⟩
    intro before after hsplit
    obtain ⟨rfl, -⟩ := List.nil_eq_append_iff.mp hsplit
    exact ⟨a, rfl, ha, (Step.add_total_nil ha).symm⟩
  | cons step steps ih =>
    obtain ⟨b, htake, hb, hshift⟩ := Step.take_eq_ok ha hlimit step
    obtain ⟨positions, hwalk, hlength, hpositions⟩ := ih hb
    refine ⟨b :: positions, ?_, ?_, ?_⟩
    · rw [walk, htake, ok_bind, hwalk, ok_bind]
    · rw [List.length_cons, List.length_cons, hlength]
    · intro before after hsplit
      cases before with
      | nil => exact ⟨a, rfl, ha, (Step.add_total_nil ha).symm⟩
      | cons first before =>
        obtain ⟨rfl, hrest⟩ := List.cons.inj hsplit
        obtain ⟨p, hp, hwithin, hvalue⟩ := hpositions before after hrest
        refine ⟨p, hp, hwithin, ?_⟩
        rw [hvalue, hshift, Int.emod_add_emod, Step.total_cons, Int.add_assoc]

/-- The last of the positions is the one after all steps; a walk without steps ends where it began. -/
theorem getLast?_positions {positions : List Nat} {steps : List Step} (h : positions.length = steps.length) :
    (a :: positions).getLast? = (a :: positions)[steps.length]? := by
  rw [List.getLast?_eq_getElem?, List.length_cons, h, Nat.add_sub_cancel]

/-- From any position of any cycle of words, whatever its limit, a walk takes all its steps and never leaves the cycle. After
any first part of it the position is the start, plus the steps forward, less the steps back, modulo the length of the cycle; so
the same steps in any other order end at the same position. -/
theorem walk_counts_steps (hlimit : limit ≤ w.maxValue) (ha : a ≤ limit) (steps : List Step) :
    ∃ positions, walk w a limit steps = .ok positions ∧ positions.length = steps.length ∧
      (∀ before after, steps = before ++ after →
        ∃ p, (a :: positions)[before.length]? = some p ∧ p ≤ limit ∧
          (p : Int) = (a + before.count .forward - before.count .back) % (limit + 1)) ∧
      ∀ steps', steps'.Perm steps →
        ∃ positions', walk w a limit steps' = .ok positions' ∧ (a :: positions').getLast? = (a :: positions).getLast? := by
  obtain ⟨positions, hwalk, hlength, hpositions⟩ := walk_eq_ok ha hlimit steps
  refine ⟨positions, hwalk, hlength, ?_, ?_⟩
  · intro before after hsplit
    obtain ⟨p, hp, hwithin, hvalue⟩ := hpositions before after hsplit
    refine ⟨p, hp, hwithin, ?_⟩
    rw [hvalue, Step.total, Int.add_sub_assoc]
  · intro steps' hperm
    obtain ⟨positions', hwalk', hlength', hpositions'⟩ := walk_eq_ok ha hlimit steps'
    obtain ⟨p, hp, -, hvalue⟩ := hpositions steps [] (List.append_nil steps).symm
    obtain ⟨p', hp', -, hvalue'⟩ := hpositions' steps' [] (List.append_nil steps').symm
    have hsame : p' = p := by
      rw [Step.total_perm hperm, ← hvalue] at hvalue'
      exact Int.ofNat.inj hvalue'
    refine ⟨positions', hwalk', ?_⟩
    rw [getLast?_positions hlength', getLast?_positions hlength, hp', hp, hsame]

/-- Three steps forward and one back, across the end of the cycle of all bytes, and the same steps with the one back first. -/
theorem walk_counts_steps_past_last_byte :
    255 ≤ Width.w8.maxValue ∧ 254 ≤ 255 ∧
      ∃ positions positions', walk .w8 254 255 [.forward, .forward, .forward, .back] = .ok positions ∧
        positions.length = 4 ∧ positions[1]? = some 0 ∧
        List.Perm [.back, .forward, .forward, .forward] [Step.forward, .forward, .forward, .back] ∧
        walk .w8 254 255 [.back, .forward, .forward, .forward] = .ok positions' ∧
        (254 :: positions').getLast? = (254 :: positions).getLast? := by
  have hlimit : 255 ≤ Width.w8.maxValue := by decide
  have hstart : 254 ≤ 255 := by decide
  have hperm : List.Perm [.back, .forward, .forward, .forward] [Step.forward, .forward, .forward, .back] := by decide
  obtain ⟨positions, hwalk, hlength, hparts, horder⟩ :=
    walk_counts_steps hlimit hstart [.forward, .forward, .forward, .back]
  obtain ⟨p, hp, -, hvalue⟩ := hparts [.forward, .forward] [.forward, .back] rfl
  obtain rfl : p = 0 := Int.ofNat.inj (hvalue.trans (by decide))
  obtain ⟨positions', hwalk', hend⟩ := horder _ hperm
  exact ⟨hlimit, hstart, positions, positions', hwalk, hlength, hp, hperm, hwalk', hend⟩

end Cyclic

end Lookback
