import Mathlib.Algebra.BigOperators.Group.List.Basic
import Mathlib.Data.List.SplitBy

/-!
# Holes in a list of numbers

A reader of numbered samples is given some of the numbers, in increasing order. Those between the first and the last that it was
not given are missing (`missing`), and missing numbers that follow one another form a hole (`holes`). One more number at the
end leaves the numbers between the last one and itself missing, all of them in one hole of their own: the number before
them is present, so they never join a hole that was there before (`length_missing_concat`, `length_holes_concat`).
-/

namespace Lookback

/-- The numbers strictly between the first and the last of a list that are not in it. -/
def missing (numbers : List Nat) : List Nat :=
  match numbers.head?, numbers.getLast? with
  | some first, some last => (List.range' (first + 1) (last - first - 1)).filter fun n => !numbers.contains n
  | _, _ => []

/-- The holes of a list: its missing numbers, in the longest stretches of numbers that follow one another. -/
def holes (numbers : List Nat) : List (List Nat) := (missing numbers).splitBy fun i j => i + 1 == j

variable {numbers : List Nat} {first last n : Nat}

/-- The numbers up to a middle one and those from there on. -/
theorem range'_append_of_le {i j k : Nat} (hij : i ≤ j) (hjk : j ≤ k) :
    List.range' i (j - i) ++ List.range' j (k - j) = List.range' i (k - i) := by
  have hmid : i + (j - i) = j := by omega
  have hjoin := List.range'_append_1 (s := i) (m := j - i) (n := k - j)
  rw [hmid] at hjoin
  rw [hjoin]
  congr 1
  omega

theorem missing_singleton (n : Nat) : missing [n] = [] := by
  simp [missing]

/-- The first number is there, so one may as well start with it. -/
theorem missing_eq_filter (hfirst : numbers.head? = some first) (hlast : numbers.getLast? = some last) :
    missing numbers = (List.range' first (last - first)).filter fun n => !numbers.contains n := by
  have hmem : first ∈ numbers := List.mem_of_mem_head? hfirst
  simp only [missing, hfirst, hlast]
  by_cases hle : last ≤ first
  · have hnone : last - first = 0 := by omega
    rw [hnone]
    rfl
  · have hsome : last - first = last - first - 1 + 1 := by omega
    rw [hsome, List.range'_succ, List.filter_cons_of_neg (by simpa using hmem)]
    rfl

/-- A list with a last number has a first one. -/
theorem exists_head? (hlast : numbers.getLast? = some last) : ∃ first, numbers.head? = some first := by
  cases numbers with
  | nil => exact absurd hlast (by simp)
  | cons first rest => exact ⟨first, rfl⟩

/-- In an increasing list no number comes after the last one. -/
theorem le_of_getLast? (hincreasing : numbers.Pairwise (· < ·)) (hlast : numbers.getLast? = some last) (hn : n ∈ numbers) :
    n ≤ last := by
  obtain ⟨before, rfl⟩ := List.getLast?_eq_some_iff.mp hlast
  rw [List.pairwise_append] at hincreasing
  rcases List.mem_append.mp hn with hn | hn
  · exact Nat.le_of_lt (hincreasing.2.2 n hn last List.mem_cons_self)
  · exact Nat.le_of_eq (List.mem_singleton.mp hn)

/-- In an increasing list no number comes before the first one. -/
theorem head?_le (hincreasing : numbers.Pairwise (· < ·)) (hfirst : numbers.head? = some first) (hn : n ∈ numbers) :
    first ≤ n := by
  obtain ⟨rest, rfl⟩ := List.head?_eq_some_iff.mp hfirst
  rcases List.mem_cons.mp hn with rfl | hn
  · exact Nat.le_refl _
  · exact Nat.le_of_lt (List.rel_of_pairwise_cons hincreasing hn)

/-- A further number leaves those missing that lie between the last one and itself. -/
theorem missing_concat (hincreasing : (numbers ++ [n]).Pairwise (· < ·)) (hlast : numbers.getLast? = some last) :
    missing (numbers ++ [n]) = missing numbers ++ List.range' (last + 1) (n - last - 1) := by
  obtain ⟨hbefore, -, hless⟩ := List.pairwise_append.mp hincreasing
  have hnext : last < n := hless last (List.mem_of_mem_getLast? hlast) n List.mem_cons_self
  obtain ⟨first, hfirst⟩ := exists_head? hlast
  have hspan : first ≤ last := head?_le hbefore hfirst (List.mem_of_mem_getLast? hlast)
  have hcut : List.range' first (n - first) =
      List.range' first (last - first) ++ last :: List.range' (last + 1) (n - last - 1) := by
    have hsome : n - last = n - last - 1 + 1 := by omega
    rw [← range'_append_of_le hspan (Nat.le_of_lt hnext), hsome, List.range'_succ]
    rfl
  have hold : ((List.range' first (last - first)).filter fun k => !(numbers ++ [n]).contains k) =
      (List.range' first (last - first)).filter fun k => !numbers.contains k := by
    apply List.filter_congr
    intro k hk
    have hk := (List.mem_range'_1.mp hk).2
    have hne : k ≠ n := by omega
    simp [hne]
  have hnew : ((List.range' (last + 1) (n - last - 1)).filter fun k => !(numbers ++ [n]).contains k) =
      List.range' (last + 1) (n - last - 1) := by
    rw [List.filter_eq_self]
    intro k hk
    have hk := List.mem_range'_1.mp hk
    have hnot : k ∉ numbers := by
      intro hmem
      have hle := le_of_getLast? hbefore hlast hmem
      omega
    have hne : k ≠ n := by omega
    simp [hnot, hne]
  have hthere : last ∈ numbers := List.mem_of_mem_getLast? hlast
  have hends : (numbers ++ [n]).head? = some first ∧ (numbers ++ [n]).getLast? = some n := by simp [hfirst]
  rw [missing_eq_filter hends.1 hends.2, missing_eq_filter hfirst hlast, hcut, List.filter_append,
    List.filter_cons_of_neg (by simp [hthere]), hold, hnew]

/-- Missing numbers come before the last one. -/
theorem lt_of_mem_missing (hlast : numbers.getLast? = some last) (hn : n ∈ missing numbers) : n < last := by
  obtain ⟨first, hfirst⟩ := exists_head? hlast
  rw [missing_eq_filter hfirst hlast] at hn
  have hn := List.mem_range'_1.mp (List.mem_filter.mp hn).1
  omega

/-- The number of missing numbers, one number later. -/
theorem length_missing_concat (hincreasing : (numbers ++ [n]).Pairwise (· < ·)) (hlast : numbers.getLast? = some last) :
    (missing (numbers ++ [n])).length = (missing numbers).length + (n - last - 1) := by
  rw [missing_concat hincreasing hlast, List.length_append, List.length_range']

/-- The number of holes, one number later: there is one more if the number does not follow the last one. -/
theorem length_holes_concat (hincreasing : (numbers ++ [n]).Pairwise (· < ·)) (hlast : numbers.getLast? = some last) :
    (holes (numbers ++ [n])).length = (holes numbers).length + if last + 1 < n then 1 else 0 := by
  have hapart : ∀ i ∈ (missing numbers).getLast?, ∀ j ∈ (List.range' (last + 1) (n - last - 1)).head?,
      (i + 1 == j) = false := by
    intro i hi j hj
    have hi := lt_of_mem_missing hlast (List.mem_of_mem_getLast? hi)
    have hj := (List.mem_range'_1.mp (List.mem_of_mem_head? hj)).1
    simp only [beq_eq_false_iff_ne]
    omega
  rw [holes, holes, missing_concat hincreasing hlast, List.splitBy_append hapart, List.length_append]
  congr 1
  by_cases hjump : last + 1 < n
  · have hsome : List.range' (last + 1) (n - last - 1) ≠ [] := by
      simp only [ne_eq, List.range'_eq_nil_iff]
      omega
    have hchain : (List.range' (last + 1) (n - last - 1)).IsChain fun i j => (i + 1 == j) = true :=
      (List.isChain_range' _ _ 1).imp fun i j hij => by simp [hij]
    rw [if_pos hjump, List.splitBy_of_isChain hsome hchain, List.length_singleton]
  · have hnone : n - last - 1 = 0 := by omega
    rw [if_neg hjump, hnone]
    rfl

/-- No more numbers are missing than there are between the first and the last one. -/
theorem length_missing_le (hfirst : numbers.head? = some first) (hlast : numbers.getLast? = some last) :
    (missing numbers).length ≤ last - first := by
  have hle := List.length_filter_le (fun n => !numbers.contains n) (List.range' first (last - first))
  rwa [List.length_range', ← missing_eq_filter hfirst hlast] at hle

/-- Each hole is made of missing numbers. -/
theorem length_holes_le (numbers : List Nat) : (holes numbers).length ≤ (missing numbers).length := by
  have hparts : (missing numbers).length = ((holes numbers).map List.length).sum := by
    rw [← List.length_flatten, holes, List.flatten_splitBy]
  have hsome : ∀ k ∈ (holes numbers).map List.length, 1 ≤ k := by
    intro k hk
    obtain ⟨hole, hhole, rfl⟩ := List.mem_map.mp hk
    exact List.length_pos_iff.mpr (List.ne_nil_of_mem_splitBy hhole)
  have hle := List.length_le_sum_of_one_le _ hsome
  rwa [List.length_map, ← hparts] at hle

/-- A list without jumps has no missing numbers. -/
theorem missing_range' (first length : Nat) : missing (List.range' first length) = [] := by
  cases length with
  | zero => rfl
  | succ length =>
    have hhead : (List.range' first (length + 1)).head? = some first := rfl
    have hlast : (List.range' first (length + 1)).getLast? = some (first + length) := by
      simp [List.getLast?_range']
    rw [missing_eq_filter hhead hlast, List.filter_eq_nil_iff]
    intro n hn
    have hn := List.mem_range'_1.mp hn
    have hmem : n ∈ List.range' first (length + 1) := List.mem_range'_1.mpr (by omega)
    simpa using hmem

end Lookback
