import Lookback.Proofs.Cycle

/-!
# Moves in exact integers

A move is computed with words, and a step of it that leads to no word cuts it short. `addValues` and `subValues` list what the
steps come to in exact integers, where nothing is cut short. Words and integers agree as far as the words reach: a move
succeeds exactly if its operands lie within the limit and all these integers are words, and then ends at the last of them
(`add_eq_ok_iff`, `sub_eq_ok_iff`).

For operands within the limit none of the integers lies past the limit, so all of them are words, also on the cycle of all
words, whose length is none. The last one is the sum or the difference modulo that length (`moves_modular`).
-/

namespace Lookback

namespace Cyclic

variable {w : Width} {a b n limit : Nat}

/-- What a move forward comes to, step by step. -/
def addValues (a b limit : Int) : List Int :=
  if limit - a < b then [limit - a, b - (limit - a), b - (limit - a) - 1] else [limit - a, a + b]

/-- What a move back comes to, step by step. -/
def subValues (a b limit : Int) : List Int :=
  if a < b then [limit - b, limit - b + a, limit - b + a + 1] else [a - b]

/-! ## Operands past the limit -/

theorem requireWithin_eq_error (h : limit < a) : requireWithin a limit = .error (.aboveLimit a limit) :=
  if_neg (Nat.not_le_of_lt h)

/-- A first operand past the limit is named, whatever the second one is. -/
theorem moves_eq_error_first (w : Width) (ha : limit < a) (b : Nat) :
    add w a b limit = .error (.aboveLimit a limit) ∧ sub w a b limit = .error (.aboveLimit a limit) := by
  unfold add sub
  simp only [requireWithin_eq_error ha, error_bind, and_self]

/-- A second operand past the limit is named if the first one is not. -/
theorem moves_eq_error_second (w : Width) (ha : a ≤ limit) (hb : limit < b) :
    add w a b limit = .error (.aboveLimit b limit) ∧ sub w a b limit = .error (.aboveLimit b limit) := by
  unfold add sub
  simp only [requireWithin_eq_ok ha, requireWithin_eq_error hb, ok_bind, error_bind, and_self]

/-! ## Words and integers -/

/-- A move forward succeeds exactly if all it comes to in exact integers are words, and ends at the last of them. -/
theorem add_eq_ok_iff (hlimit : limit ≤ w.maxValue) :
    add w a b limit = .ok n ↔
      a ≤ limit ∧ b ≤ limit ∧ (∀ v ∈ addValues a b limit, 0 ≤ v ∧ v ≤ w.maxValue) ∧
        (addValues a b limit).getLast? = some (n : Int) := by
  by_cases ha : a ≤ limit
  case neg => simp [(moves_eq_error_first w (Nat.lt_of_not_le ha) b).1, ha]
  by_cases hb : b ≤ limit
  case neg => simp [(moves_eq_error_second w ha (Nat.lt_of_not_le hb)).1, hb]
  unfold add addValues
  rw [requireWithin_eq_ok ha, requireWithin_eq_ok hb, subtract_eq_ok ha]
  simp only [ok_bind]
  by_cases h : limit - a < b
  · have hint : (limit : Int) - a < b := by omega
    rw [if_pos h, if_pos hint, subtract_eq_ok (Nat.le_of_lt h), ok_bind, subtract_eq_ok (by omega)]
    simp only [Except.ok.injEq, List.mem_cons, List.not_mem_nil, or_false, forall_eq_or_imp, forall_eq,
      List.getLast?_cons_cons, List.getLast?_singleton, Option.some.injEq]
    omega
  · have hint : ¬((limit : Int) - a < b) := by omega
    rw [if_neg h, if_neg hint, Width.add_eq_ok (by omega)]
    simp only [Except.ok.injEq, List.mem_cons, List.not_mem_nil, or_false, forall_eq_or_imp, forall_eq,
      List.getLast?_cons_cons, List.getLast?_singleton, Option.some.injEq]
    omega

/-- A move back succeeds exactly if all it comes to in exact integers are words, and ends at the last of them. -/
theorem sub_eq_ok_iff (hlimit : limit ≤ w.maxValue) :
    sub w a b limit = .ok n ↔
      a ≤ limit ∧ b ≤ limit ∧ (∀ v ∈ subValues a b limit, 0 ≤ v ∧ v ≤ w.maxValue) ∧
        (subValues a b limit).getLast? = some (n : Int) := by
  by_cases ha : a ≤ limit
  case neg => simp [(moves_eq_error_first w (Nat.lt_of_not_le ha) b).2, ha]
  by_cases hb : b ≤ limit
  case neg => simp [(moves_eq_error_second w ha (Nat.lt_of_not_le hb)).2, hb]
  unfold sub subValues
  rw [requireWithin_eq_ok ha, requireWithin_eq_ok hb]
  simp only [ok_bind]
  by_cases h : a < b
  · have hint : (a : Int) < b := by omega
    rw [if_pos h, if_pos hint, subtract_eq_ok hb, ok_bind, Width.add_eq_ok (by omega), ok_bind, Width.add_eq_ok (by omega)]
    simp only [Except.ok.injEq, List.mem_cons, List.not_mem_nil, or_false, forall_eq_or_imp, forall_eq,
      List.getLast?_cons_cons, List.getLast?_singleton, Option.some.injEq]
    omega
  · have hint : ¬((a : Int) < b) := by omega
    rw [if_neg h, if_neg hint, subtract_eq_ok (by omega)]
    simp only [Except.ok.injEq, List.mem_singleton, forall_eq, List.getLast?_singleton, Option.some.injEq]
    omega

/-! ## Operands within the limit -/

/-- Nothing that a move forward comes to lies past the limit. -/
theorem addValues_within (ha : a ≤ limit) (hb : b ≤ limit) : ∀ v ∈ addValues a b limit, 0 ≤ v ∧ v ≤ limit := by
  intro v hv
  unfold addValues at hv
  split at hv
  · simp only [List.mem_cons, List.not_mem_nil, or_false] at hv
    rcases hv with rfl | rfl | rfl <;> omega
  · simp only [List.mem_cons, List.not_mem_nil, or_false] at hv
    rcases hv with rfl | rfl <;> omega

/-- Nothing that a move back comes to lies past the limit. -/
theorem subValues_within (ha : a ≤ limit) (hb : b ≤ limit) : ∀ v ∈ subValues a b limit, 0 ≤ v ∧ v ≤ limit := by
  intro v hv
  unfold subValues at hv
  split at hv
  · simp only [List.mem_cons, List.not_mem_nil, or_false] at hv
    rcases hv with rfl | rfl | rfl <;> omega
  · simp only [List.mem_singleton] at hv
    omega

/-- What lies within a limit that is a word is a word. -/
theorem words_of_within {values : List Int} (hlimit : limit ≤ w.maxValue) (h : ∀ v ∈ values, 0 ≤ v ∧ v ≤ limit) :
    ∀ v ∈ values, 0 ≤ v ∧ v ≤ w.maxValue := by
  intro v hv
  obtain ⟨hlow, hhigh⟩ := h v hv
  exact ⟨hlow, by omega⟩

/-- A position is what every integer comes to that is whole turns away from it. -/
theorem emod_of_turns {v : Int} (position turns : Int) (hlow : 0 ≤ position) (hhigh : position ≤ limit)
    (h : v = position + turns * (limit + 1)) : v % (limit + 1) = position := by
  rw [h, Int.add_mul_emod_self_right, Int.emod_eq_of_lt hlow (by omega)]

/-- What any integer comes to on a cycle is a natural number. -/
theorem exists_emod_eq (v : Int) (limit : Nat) : ∃ position : Nat, v % (limit + 1) = position :=
  Int.eq_ofNat_of_zero_le (Int.emod_nonneg v (by omega))

/-- A move forward ends at the sum, modulo the length of the cycle. -/
theorem getLast?_addValues (ha : a ≤ limit) (hb : b ≤ limit) :
    (addValues a b limit).getLast? = some (((a : Int) + b) % (limit + 1)) := by
  unfold addValues
  split
  · rw [emod_of_turns ((b : Int) - (limit - a) - 1) 1 (by omega) (by omega) (by omega)]
    rfl
  · rw [emod_of_turns ((a : Int) + b) 0 (by omega) (by omega) (by omega)]
    rfl

/-- A move back ends at the difference, modulo the length of the cycle. -/
theorem getLast?_subValues (ha : a ≤ limit) (hb : b ≤ limit) :
    (subValues a b limit).getLast? = some (((a : Int) - b) % (limit + 1)) := by
  unfold subValues
  split
  · rw [emod_of_turns ((limit : Int) - b + a + 1) (-1) (by omega) (by omega) (by omega)]
    rfl
  · rw [emod_of_turns ((a : Int) - b) 0 (by omega) (by omega) (by omega)]
    rfl

/-- A move forward succeeds and ends where it does in exact integers. -/
theorem add_exact (hlimit : limit ≤ w.maxValue) (ha : a ≤ limit) (hb : b ≤ limit) :
    ∃ sum, add w a b limit = .ok sum ∧ (addValues a b limit).getLast? = some (sum : Int) ∧
      (sum : Int) = (a + b) % (limit + 1) := by
  obtain ⟨sum, hsum⟩ := exists_emod_eq ((a : Int) + b) limit
  have hlast := getLast?_addValues ha hb
  rw [hsum] at hlast
  exact ⟨sum, (add_eq_ok_iff hlimit).mpr ⟨ha, hb, words_of_within hlimit (addValues_within ha hb), hlast⟩, hlast, hsum.symm⟩

/-- A move back succeeds and ends where it does in exact integers. -/
theorem sub_exact (hlimit : limit ≤ w.maxValue) (ha : a ≤ limit) (hb : b ≤ limit) :
    ∃ difference, sub w a b limit = .ok difference ∧ (subValues a b limit).getLast? = some (difference : Int) ∧
      (difference : Int) = (a - b) % (limit + 1) := by
  obtain ⟨difference, hdifference⟩ := exists_emod_eq ((a : Int) - b) limit
  have hlast := getLast?_subValues ha hb
  rw [hdifference] at hlast
  exact ⟨difference, (sub_eq_ok_iff hlimit).mpr ⟨ha, hb, words_of_within hlimit (subValues_within ha hb), hlast⟩, hlast,
    hdifference.symm⟩

/-- On every cycle of words, the cycle of all words included: moves of operands within the limit come to nothing but words, and
end at the sum and the difference modulo the length of the cycle. An operand past the limit is refused by either move, and the
first one is named if both are. -/
theorem moves_modular (hlimit : limit ≤ w.maxValue) (a b : Nat) :
    (a ≤ limit → b ≤ limit →
      (∀ v ∈ addValues a b limit ++ subValues a b limit, 0 ≤ v ∧ v ≤ w.maxValue) ∧
      (∃ sum, add w a b limit = .ok sum ∧ (addValues a b limit).getLast? = some (sum : Int) ∧
        (sum : Int) = (a + b) % (limit + 1)) ∧
      ∃ difference, sub w a b limit = .ok difference ∧ (subValues a b limit).getLast? = some (difference : Int) ∧
        (difference : Int) = (a - b) % (limit + 1)) ∧
    (limit < a → add w a b limit = .error (.aboveLimit a limit) ∧ sub w a b limit = .error (.aboveLimit a limit)) ∧
    (a ≤ limit → limit < b →
      add w a b limit = .error (.aboveLimit b limit) ∧ sub w a b limit = .error (.aboveLimit b limit)) := by
  refine ⟨?_, fun ha => moves_eq_error_first w ha b, moves_eq_error_second w⟩
  intro ha hb
  refine ⟨?_, add_exact hlimit ha hb, sub_exact hlimit ha hb⟩
  intro v hv
  rcases List.mem_append.mp hv with hforward | hback
  · exact words_of_within hlimit (addValues_within ha hb) v hforward
  · exact words_of_within hlimit (subValues_within ha hb) v hback

/-- Moves by the largest word on the cycle of all words, whose length no word holds, and operands past a smaller limit. -/
theorem moves_modular_at_widest_limit :
    Width.w128.maxValue ≤ Width.w128.maxValue ∧ 3 ≤ Width.w128.maxValue ∧
      add .w128 3 Width.w128.maxValue Width.w128.maxValue = .ok 2 ∧
      sub .w128 3 Width.w128.maxValue Width.w128.maxValue = .ok 4 ∧
      4 ≤ Width.w8.maxValue ∧ 4 < 5 ∧ add .w8 5 9 4 = .error (.aboveLimit 5 4) ∧
      4 ≤ 4 ∧ 4 < 9 ∧ sub .w8 4 9 4 = .error (.aboveLimit 9 4) := by
  have hwidest : 3 ≤ Width.w128.maxValue := by decide
  have hfour : 4 ≤ Width.w8.maxValue := by decide
  obtain ⟨hmoves, -, -⟩ := moves_modular (Nat.le_refl Width.w128.maxValue) 3 Width.w128.maxValue
  obtain ⟨-, ⟨sum, hadd, -, hsum⟩, difference, hsub, -, hdifference⟩ := hmoves hwidest (Nat.le_refl _)
  obtain rfl : sum = 2 := Int.ofNat.inj (hsum.trans (by decide))
  obtain rfl : difference = 4 := Int.ofNat.inj (hdifference.trans (by decide))
  obtain ⟨-, hfirst, -⟩ := moves_modular hfour 5 9
  obtain ⟨-, -, hsecond⟩ := moves_modular hfour 4 9
  exact ⟨Nat.le_refl _, hwidest, hadd, hsub, hfour, by decide, (hfirst (by decide)).1, by decide, by decide,
    (hsecond (by decide) (by decide)).2⟩

end Cyclic

end Lookback
